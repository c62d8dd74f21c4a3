import ParticleAutomaton.Proofs.Likeness

namespace ParticleAutomaton

namespace Text

theorem before_asymm {s t : String} (h : before s t = true) : before t s = false := by
  by_contra hc
  have ht := before_trans h ((Bool.not_eq_false _).mp hc)
  rw [before_irrefl] at ht
  exact nomatch ht

theorem atMost_iff {s t : String} : atMost s t = true ↔ s = t ∨ before s t = true := by
  unfold atMost
  constructor
  · intro h
    by_cases he : s = t
    · exact Or.inl he
    · exact Or.inr (before_of_not (by simpa using h) (Ne.symm he))
  · rintro (rfl | h)
    · simp [before_irrefl]
    · simp [before_asymm h]

theorem atMost_trans {s t u : String} (h : atMost s t = true) (k : atMost t u = true) :
    atMost s u = true := by
  rw [atMost_iff] at h k ⊢
  rcases h with rfl | h
  · exact k
  · rcases k with rfl | k
    · exact Or.inr h
    · exact Or.inr (before_trans h k)

theorem atMost_total (s t : String) : (atMost s t || atMost t s) = true := by
  by_cases he : s = t
  · simp [he, atMost, before_irrefl]
  · cases hb : before s t with
    | true => simp [atMost_iff.mpr (Or.inr hb)]
    | false => simp [atMost, hb]

theorem atMost_antisymm {s t : String} (h : atMost s t = true) (k : atMost t s = true) : s = t := by
  rcases atMost_iff.mp h with he | hb
  · exact he
  · simp [atMost, hb] at k

end Text

namespace Grid

theorem cells_toList (g : Grid) : g.cells.toList = g.points.filterMap g.get? := by
  have h := congrArg (List.filterMap id) g.map_get?_points
  rw [List.filterMap_map, List.filterMap_map] at h
  simpa using h.symm

theorem mem_cells {g : Grid} {c : Cell} : c ∈ g.cells.toList ↔ ∃ p, g.get? p = some c := by
  rw [cells_toList, List.mem_filterMap]
  exact ⟨fun ⟨p, _, hp⟩ => ⟨p, hp⟩, fun ⟨p, hp⟩ => ⟨p, mem_points.mpr (contains_of_get? hp), hp⟩⟩

end Grid

namespace Scene

variable {R : Type}

/-- The names of the particles of all cells, row by row. -/
def names (x : Scene R) : List String := x.1.particles.map x.2.name

/-- The particles of all cells are in the registry. -/
def Named (x : Scene R) : Prop := ∀ id ∈ x.1.particles, ∃ name, x.2.name? id = some name

/-- The counts before they are put in order. -/
def tally (r : Registry R) : List (String × Nat) :=
  r.particles.toList.filterMap fun (_, p) => if p.count = 0 then none else some (p.name, p.count)

theorem counts_eq (r : Registry R) :
    r.counts = (tally r).mergeSort fun a b => Text.atMost a.1 b.1 := rfl

theorem counts_perm (r : Registry R) : r.counts.Perm (tally r) := by
  rw [counts_eq]
  exact List.mergeSort_perm ..

theorem counts_sorted (r : Registry R) :
    r.counts.Pairwise fun a b => Text.atMost a.1 b.1 = true := by
  rw [counts_eq]
  refine List.pairwise_mergeSort (fun a b c => ?_) (fun a b => ?_) (tally r)
  · exact Text.atMost_trans
  · exact Text.atMost_total ..

variable [Scalar R]

theorem held_eq {x : Scene R} (hs : x.2.Sound) (hc : x.Counted) (hn : x.Named) {id : ParticleId}
    {name : String} (h : x.2.name? id = some name) : x.2.held id = x.names.count name := by
  rw [hc, names, List.count, List.count, List.countP_map]
  refine List.countP_congr fun other ho => ?_
  obtain ⟨name', ho⟩ := hn other ho
  simp only [Function.comp_apply, beq_iff_eq, Registry.name_of ho]
  constructor
  · rintro rfl
    exact Option.some.inj (ho.symm.trans h)
  · rintro rfl
    exact hs.name_inj ho h

theorem count_eq {x : Scene R} (hs : x.2.Sound) (hc : x.Counted) (hn : x.Named) (name : String) :
    x.2.count name = x.names.count (Text.truncate x.2.maxNameLen name) := by
  unfold Registry.count Registry.find?
  cases hi : x.2.index[Text.truncate x.2.maxNameLen name]? with
  | some id => exact held_eq hs hc hn (hs.index.mp hi)
  | none =>
    refine (List.count_eq_zero.mpr fun hm => ?_).symm
    obtain ⟨id, hid, he⟩ := List.mem_map.mp hm
    obtain ⟨name', hn'⟩ := hn id hid
    rw [Registry.name_of hn'] at he
    rw [← he, hs.index.mpr hn'] at hi
    exact nomatch hi

/-- What the registry tells of a particle. -/
theorem held_entry {x : Scene R} (hs : x.2.Sound) (hc : x.Counted) (hn : x.Named) {id : ParticleId}
    {p : Particle R} (h : x.2.get? id = some p) : p.count = x.names.count p.name := by
  have hheld : x.2.held id = p.count := by
    rw [Registry.held, h]
    rfl
  rw [← hheld, held_eq hs hc hn (Registry.name?_of_get? h)]

theorem mem_tally {x : Scene R} (hs : x.2.Sound) (hc : x.Counted) (hn : x.Named)
    {entry : String × Nat} :
    entry ∈ tally x.2 ↔ entry.1 ∈ x.names ∧ entry.2 = x.names.count entry.1 := by
  rw [tally, List.mem_filterMap]
  constructor
  · rintro ⟨⟨id, p⟩, hm, he⟩
    have hcount := held_entry hs hc hn (Arena.mem_toList.mp hm)
    simp only at he
    split at he
    next => exact nomatch he
    next hz =>
      cases he
      refine ⟨List.count_pos_iff.mp ?_, hcount⟩
      rw [← hcount]
      exact Nat.pos_of_ne_zero hz
  · rintro ⟨hm, he⟩
    obtain ⟨id, hid, hname⟩ := List.mem_map.mp hm
    obtain ⟨name, hn'⟩ := hn id hid
    obtain ⟨p, hp, hpn⟩ := Registry.get?_of_name? hn'
    have hcount := held_entry hs hc hn hp
    rw [← hname, Registry.name_of hn', ← hpn] at hm he
    have hpos := List.count_pos_iff.mpr hm
    refine ⟨(id, p), Arena.mem_toList.mpr hp, ?_⟩
    have hz : p.count ≠ 0 := by omega
    simp only [hz, if_false]
    refine congrArg some (Prod.ext ?_ (hcount.trans he.symm))
    rw [hpn, ← Registry.name_of hn', hname]

theorem nodup_tally {r : Registry R} (hs : r.Sound) : (tally r).Nodup := by
  have hslots : r.particles.toList.Pairwise fun e f => e.1.slot ≠ f.1.slot :=
    List.pairwise_map.mp r.particles.nodup_slots_toList
  refine List.pairwise_filterMap.mpr (hslots.imp_of_mem fun {e f} he hf hne => ?_)
  intro a ha b hb hab
  have hp := Registry.name?_of_get? (Arena.mem_toList.mp he)
  have hq := Registry.name?_of_get? (Arena.mem_toList.mp hf)
  have hnames : e.2.name = f.2.name := by
    simp only at ha hb
    split at ha
    next => exact nomatch ha
    next =>
      split at hb
      next => exact nomatch hb
      next =>
        cases ha
        cases hb
        exact congrArg Prod.fst hab
  exact hne (congrArg ParticleId.slot (hs.name_inj (hnames ▸ hp) hq))

/-- Counts by name depend on the names of the cells alone. -/
theorem counts_congr {x y : Scene R} (hx : x.2.Sound) (hy : y.2.Sound) (cx : x.Counted)
    (cy : y.Counted) (nx : x.Named) (ny : y.Named) (h : y.names = x.names) :
    y.2.counts = x.2.counts := by
  have hperm : (tally y.2).Perm (tally x.2) := by
    refine (List.perm_ext_iff_of_nodup (nodup_tally hy) (nodup_tally hx)).mpr fun entry => ?_
    rw [mem_tally hx cx nx, mem_tally hy cy ny, h]
  refine List.Perm.eq_of_pairwise (fun a b ha hb hab hba => ?_) (counts_sorted y.2)
    (counts_sorted x.2) ((counts_perm y.2).trans (hperm.trans (counts_perm x.2).symm))
  have he := Text.atMost_antisymm hab hba
  have hma := ((mem_tally hy cy ny).mp ((counts_perm y.2).mem_iff.mp ha)).2
  have hmb := ((mem_tally hx cx nx).mp ((counts_perm x.2).mem_iff.mp hb)).2
  rw [h] at hma
  exact Prod.ext he (by rw [hma, hmb, he])

namespace Alike

variable {x y : Scene R} (h : x.Alike y)

include h

theorem named_left : x.Named := by
  intro id hm
  obtain ⟨c, hc, rfl⟩ := List.mem_map.mp hm
  obtain ⟨p, hp⟩ := Grid.mem_cells.mp hc
  obtain ⟨d, -, hcd⟩ := h.cell hp
  obtain ⟨name, hi, -⟩ := hcd.particle
  exact ⟨name, hi⟩

theorem named_right : y.Named := by
  intro id hm
  obtain ⟨d, hd, rfl⟩ := List.mem_map.mp hm
  obtain ⟨p, hp⟩ := Grid.mem_cells.mp hd
  obtain ⟨c, hc⟩ := Grid.get?_of_contains ((h.contains p).symm.trans (Grid.contains_of_get? hp))
  obtain ⟨d', hd', hcd⟩ := h.cell hc
  cases hp.symm.trans hd'
  obtain ⟨name, -, hj⟩ := hcd.particle
  exact ⟨name, hj⟩

/-- What is the same for cells with the same contents by name is the same for all cells. -/
theorem map_cells {β : Type} {f k : Cell → β} (hf : ∀ c d, x.2.CellsAlike y.2 c d → k d = f c) :
    y.1.cells.toList.map k = x.1.cells.toList.map f := by
  rw [Grid.cells_toList, Grid.cells_toList, List.map_filterMap, List.map_filterMap, h.points]
  refine List.filterMap_congr fun p hp => ?_
  obtain ⟨c, hc⟩ := Grid.get?_of_contains (Grid.mem_points.mp hp)
  obtain ⟨d, hd, hcd⟩ := h.cell hc
  rw [hc, hd, Option.map_some, Option.map_some, hf c d hcd]

theorem names : y.names = x.names := by
  simp only [Scene.names, Grid.particles, List.map_map]
  exact h.map_cells fun _ _ hcd => hcd.particle.name

end Alike

namespace Twins

variable {x y : Scene R} (h : x.Twins y)

include h

theorem count (name : String) : y.2.count name = x.2.count name := by
  rw [count_eq h.left h.leftCounted h.named_left, count_eq h.right h.rightCounted h.named_right,
    h.names, h.maxNameLen]

theorem counts : y.2.counts = x.2.counts :=
  counts_congr h.left h.right h.leftCounted h.rightCounted h.named_left h.named_right h.names

end Twins

end Scene

end ParticleAutomaton
