import ParticleAutomaton.Proofs.OverwrittenBonds

namespace ParticleAutomaton

namespace Bond

/-- The other end of a bond with an end at a place. -/
def partner (b : Bond) (p : Point) : Point := if b.origin = p then b.destination else b.origin

theorem partner_of_origin {b : Bond} {p : Point} (h : b.origin = p) :
    b.partner p = b.destination := if_pos h

theorem partner_of_destination {b : Bond} {p : Point} (h : b.destination = p) :
    b.partner p = b.origin := by
  unfold partner
  split
  next ho => exact h.trans ho.symm
  next => rfl

end Bond

namespace Grid

/-- The bonds that a place shares with other places of the grid. -/
def sharedBonds (g : Grid) (p : Point) : List Bond :=
  g.innerBonds.filter fun b => b.EndsAt p ∧ b.origin ≠ b.destination

theorem mem_sharedBonds {g : Grid} {p : Point} {b : Bond} :
    b ∈ g.sharedBonds p ↔ (g.field.Leaves b ∧ g.contains b.destination = true) ∧
      b.EndsAt p ∧ b.origin ≠ b.destination := by
  rw [sharedBonds, List.mem_filter, mem_innerBonds, decide_eq_true_eq]

theorem nodup_sharedBonds (g : Grid) (p : Point) : (g.sharedBonds p).Nodup :=
  (g.nodup_bonds.filter _).filter _

/-- The half of an outgoing bond at its other end is the bond that enters there. -/
theorem enters_entry {g : Grid} {p : Point} {e : String × Point} :
    g.field.Enters ⟨p, p + e.2, e.1⟩ ↔ g.incoming? (p + e.2) e.1 = some (-e.2) := by
  rw [enters_field, Point.sub_add_self]

theorem leaves_entry {g : Grid} {p : Point} {e : String × Point} :
    g.field.Leaves ⟨p + e.2, p, e.1⟩ ↔ g.outgoing? (p + e.2) e.1 = some (-e.2) := by
  rw [leaves_field, Point.sub_add_self]

/-- To take one bond away is to leave the others as they are. -/
theorem incoming?_unlinkOutgoing {p : Point} {s : List Point × Grid} {e e' : String × Point}
    (h : e' ≠ e) :
    (unlinkOutgoing p s e).2.incoming? (p + e'.2) e'.1 = some (-e'.2) ↔
      s.2.incoming? (p + e'.2) e'.1 = some (-e'.2) := by
  rw [← enters_entry, ← enters_entry, field_unlinkOutgoing, BondField.enters_edit_dropIncoming]
  refine and_iff_left fun ⟨hd, hn, _⟩ => h (CellBonds.entry_eq hd hn)

theorem outgoing?_unlinkIncoming {p : Point} {s : List Point × Grid} {e e' : String × Point}
    (h : e' ≠ e) :
    (unlinkIncoming p s e).2.outgoing? (p + e'.2) e'.1 = some (-e'.2) ↔
      s.2.outgoing? (p + e'.2) e'.1 = some (-e'.2) := by
  rw [← leaves_entry, ← leaves_entry, field_unlinkIncoming, BondField.leaves_edit_dropOutgoing]
  refine and_iff_left fun ⟨ho, hn, _⟩ => h (CellBonds.entry_eq ho hn)

/-- Entries that are taken away one after the other are told if their other half was there from the
start. -/
theorem told_foldl {p : Point} {f : List Point × Grid → String × Point → List Point × Grid}
    (found : Grid → String × Point → Bool)
    (htold : ∀ s e, (f s e).1 = s.1 ++ if found s.2 e then [p + e.2] else [])
    (hkeep : ∀ s e e', e' ≠ e → found (f s e).2 e' = found s.2 e')
    {es : List (String × Point)} (hes : es.Nodup) (s : List Point × Grid) :
    (es.foldl f s).1 = s.1 ++ (es.filter (found s.2)).map (p + ·.2) := by
  induction es generalizing s with
  | nil => simp
  | cons e es ih =>
    obtain ⟨hnot, hes⟩ := List.nodup_cons.mp hes
    have hrest : es.filter (found (f s e).2) = es.filter (found s.2) :=
      List.filter_congr fun e' he' => hkeep s e e' fun he => hnot (he ▸ he')
    rw [List.foldl_cons, ih hes, htold, hrest, List.filter_cons]
    split <;> simp

theorem told_unlinkOutgoing {p : Point} {es : List (String × Point)} (hes : es.Nodup)
    (s : List Point × Grid) :
    (es.foldl (unlinkOutgoing p) s).1 = s.1 ++
      (es.filter fun e => s.2.incoming? (p + e.2) e.1 = some (-e.2)).map (p + ·.2) := by
  refine told_foldl (fun g e => decide (g.incoming? (p + e.2) e.1 = some (-e.2)))
    (fun s e => ?_) (fun s e e' he => ?_) hes s
  · unfold unlinkOutgoing
    simp only [decide_eq_true_eq]
    split
    next => rfl
    next => simp
  · exact decide_eq_decide.mpr (incoming?_unlinkOutgoing he)

theorem told_unlinkIncoming {p : Point} {es : List (String × Point)} (hes : es.Nodup)
    (s : List Point × Grid) :
    (es.foldl (unlinkIncoming p) s).1 = s.1 ++
      (es.filter fun e => s.2.outgoing? (p + e.2) e.1 = some (-e.2)).map (p + ·.2) := by
  refine told_foldl (fun g e => decide (g.outgoing? (p + e.2) e.1 = some (-e.2)))
    (fun s e => ?_) (fun s e e' he => ?_) hes s
  · unfold unlinkIncoming
    simp only [decide_eq_true_eq]
    split
    next => rfl
    next => simp
  · exact decide_eq_decide.mpr (outgoing?_unlinkIncoming he)

/-- What is told of outgoing bonds: the other ends of those whose other halves are found. -/
theorem told_leaving (p : Point) (c : CellBonds) (s : List Point × Grid) :
    (c.outgoing.entries.foldl (unlinkOutgoing p) s).1 = s.1 ++
      ((c.leaving p).filter fun b =>
        s.2.incoming? b.destination b.name = some (b.origin - b.destination)).map (·.partner p) := by
  rw [told_unlinkOutgoing c.outgoing.nodup_entries, CellBonds.leaving, List.filter_map, List.map_map]
  simp only [Function.comp_def, Point.sub_add_self, Bond.partner_of_origin]

theorem told_entering (p : Point) (c : CellBonds) (s : List Point × Grid) :
    (c.incoming.entries.foldl (unlinkIncoming p) s).1 = s.1 ++
      ((c.entering p).filter fun b =>
        s.2.outgoing? b.origin b.name = some (b.destination - b.origin)).map (·.partner p) := by
  rw [told_unlinkIncoming c.incoming.nodup_entries, CellBonds.entering, List.filter_map,
    List.map_map]
  simp only [Function.comp_def, Point.sub_add_self, Bond.partner_of_destination]

section

variable {g : Grid} {p : Point} {c : Cell} (hc : g.get? p = some c)

include hc

theorem mem_leaving_iff {b : Bond} : b ∈ c.bonds.leaving p ↔ b.origin = p ∧ g.field.Leaves b := by
  rw [CellBonds.mem_leaving]
  refine and_congr_right fun ho => ?_
  rw [leaves_field, outgoing?, ho, hc]
  rfl

theorem mem_entering_iff {b : Bond} :
    b ∈ c.bonds.entering p ↔ b.destination = p ∧ g.field.Enters b := by
  rw [CellBonds.mem_entering]
  refine and_congr_right fun hd => ?_
  rw [enters_field, incoming?, hd, hc]
  rfl

/-- The other ends are told that share a bond with the place, once for each bond. -/
theorem told_removeBonds (h : g.field.Mirrored) :
    (g.removeBonds p).1.Perm ((g.sharedBonds p).map (·.partner p)) := by
  let bare := g.modifyBonds p fun _ => .empty
  let halved := (c.bonds.outgoing.entries.foldl (unlinkOutgoing p) ([], bare)).2
  let out := (c.bonds.leaving p).filter fun b =>
    bare.incoming? b.destination b.name = some (b.origin - b.destination)
  let into := (c.bonds.entering p).filter fun b =>
    halved.outgoing? b.origin b.name = some (b.destination - b.origin)
  have htold : (g.removeBonds p).1 = (out ++ into).map (·.partner p) := by
    rw [removeBonds, hc]
    simp only
    rw [told_entering, told_leaving, List.nil_append, List.map_append]
  have hhere : g.contains p = true := contains_of_get? hc
  have hout : ∀ b, b ∈ out ↔ b.origin = p ∧ b.destination ≠ p ∧
      g.field.Leaves b ∧ g.contains b.destination = true := by
    intro b
    rw [List.mem_filter, decide_eq_true_eq, ← enters_field, mem_leaving_iff hc, field_modifyBonds,
      BondField.enters_edit_empty, ← holds_field]
    have hm : g.field.Leaves b → g.field.Holds b.destination →
        (g.field.Leaves b ↔ g.field.Enters b) := fun hl => h b hl.holds
    have he : g.field.Enters b → g.field.Holds b.destination := BondField.Enters.holds
    grind
  have hinto : ∀ b, b ∈ into ↔ b.destination = p ∧ b.origin ≠ p ∧ g.field.Leaves b := by
    intro b
    have hleaves : halved.field.Leaves b ↔ g.field.Leaves b ∧ b.origin ≠ p := by
      rw [(unlinkOutgoing_fold p _ _).2.1, field_modifyBonds, BondField.leaves_edit_empty]
    rw [List.mem_filter, decide_eq_true_eq, ← leaves_field, mem_entering_iff hc, hleaves]
    have hm : b.destination = p → g.field.Leaves b → g.field.Enters b := by
      rintro rfl hl
      exact (h b hl.holds (holds_field.mpr hhere)).mp hl
    grind
  have hnodup : (out ++ into).Nodup := by
    refine List.nodup_append'.mpr ⟨(c.bonds.nodup_leaving p).filter _,
      (c.bonds.nodup_entering p).filter _, fun b ho hi => ?_⟩
    exact ((hout b).mp ho).2.1 ((hinto b).mp hi).1
  rw [htold]
  refine ((List.perm_ext_iff_of_nodup hnodup (g.nodup_sharedBonds p)).mpr fun b => ?_).map _
  rw [List.mem_append, hout, hinto, mem_sharedBonds, Bond.EndsAt]
  grind

end

section

variable {F : BondField} (hm : F.Mirrored) {p : Point} (hp : F.Holds p) {k : Bond}

include hm hp

/-- A bond that stands at its origin ends at a place just if one of its halves is there. -/
theorem endsAt_of_leaves (hk : F.Leaves k) :
    k.EndsAt p ↔ k.origin = p ∧ F.Leaves k ∨ k.destination = p ∧ F.Enters k := by
  refine ⟨fun he => ?_, Or.imp And.left And.left⟩
  rcases he with ho | rfl
  · exact Or.inl ⟨ho, hk⟩
  · exact Or.inr ⟨rfl, (hm k hk.holds hp).mp hk⟩

theorem endsAt_of_enters (hk : F.Enters k) :
    k.EndsAt p ↔ k.origin = p ∧ F.Leaves k ∨ k.destination = p ∧ F.Enters k := by
  refine ⟨fun he => ?_, Or.imp And.left And.left⟩
  rcases he with rfl | hd
  · exact Or.inl ⟨rfl, (hm k hp hk.holds).mpr hk⟩
  · exact Or.inr ⟨hd, hk⟩

end

/-- A grid without the bonds that end at a place: its cell has none, no other cell has one with it,
and all else is as before. -/
structure Unbonded (g h : Grid) (p : Point) : Prop where
  states : g.SameStates h
  bare : ∀ c, h.get? p = some c → c.bonds.isEmpty = true
  leaves : ∀ b, h.field.Leaves b ↔ g.field.Leaves b ∧ ¬ b.EndsAt p
  enters : ∀ b, h.field.Enters b ↔ g.field.Enters b ∧ ¬ b.EndsAt p

/-- A cell where no bond ends has no entries of any. -/
theorem isEmpty_of_not_endsAt {g : Grid} {p : Point} {c : Cell} (hc : g.get? p = some c)
    (hl : ∀ b, g.field.Leaves b → ¬ b.EndsAt p) (he : ∀ b, g.field.Enters b → ¬ b.EndsAt p) :
    c.bonds.isEmpty = true := by
  have hout : c.bonds.outgoing.entries = [] := by
    refine List.eq_nil_iff_forall_not_mem.mpr fun e hmem =>
      hl ⟨p, p + e.2, e.1⟩ ((mem_outgoing_iff hc).mp ?_) (Or.inl rfl)
    rwa [Point.add_sub_self]
  have hinto : c.bonds.incoming.entries = [] := by
    refine List.eq_nil_iff_forall_not_mem.mpr fun e hmem =>
      he ⟨p + e.2, p, e.1⟩ ((mem_incoming_iff hc).mp ?_) (Or.inr rfl)
    rwa [Point.add_sub_self]
  simp [CellBonds.isEmpty, NameMap.isEmpty, hout, hinto]

theorem unbonded_removeBonds {g : Grid} (h : g.field.Mirrored) {p : Point}
    (hp : g.contains p = true) : g.Unbonded (g.removeBonds p).2 p := by
  have hp := holds_field.mpr hp
  have hleaves : ∀ b, (g.removeBonds p).2.field.Leaves b ↔ g.field.Leaves b ∧ ¬ b.EndsAt p := by
    intro b
    rw [leaves_removeBonds]
    refine and_congr_right fun hb => ?_
    simp only [endsAt_of_leaves h hp hb, hb, and_true, not_or, ne_eq]
  have henters : ∀ b, (g.removeBonds p).2.field.Enters b ↔ g.field.Enters b ∧ ¬ b.EndsAt p := by
    intro b
    rw [enters_removeBonds]
    refine and_congr_right fun hb => ?_
    simp only [endsAt_of_enters h hp hb, hb, and_true, not_or]
    exact and_comm
  exact ⟨sameStates_removeBonds g p, fun c hc => isEmpty_of_not_endsAt hc
    (fun b hb => ((hleaves b).mp hb).2) fun b hb => ((henters b).mp hb).2, hleaves, henters⟩

/-- To take the bonds off a cell is exact. Afterwards the cell has none and no other cell has one
with it, while all other bonds, all particles and all numbers of writes are as before, and bonds
between two cells stand at both of them again. The other ends on the grid are told, once for each
bond that they shared with the cell, and nothing else is. -/
theorem removeBonds_exact {g : Grid} (h : g.gap? = none) {p : Point} (hp : g.contains p = true) :
    g.Unbonded (g.removeBonds p).2 p ∧ (g.removeBonds p).2.gap? = none ∧
      (g.removeBonds p).1.Perm ((g.sharedBonds p).map (·.partner p)) := by
  have hm := gap?_eq_none_iff.mp h
  obtain ⟨c, hc⟩ := get?_of_contains hp
  exact ⟨unbonded_removeBonds hm hp, gap?_eq_none_iff.mpr (mirrored_removeBonds hm p),
    told_removeBonds hc hm⟩

/-- Two cells with a bond of one name in each direction; the first one has a bond with itself and
one that leaves the grid besides. -/
def linkedBothWays : Grid where
  width := 2
  height := 1
  cells := #[
    ⟨default, 0, .ofList [("edge", ⟨0, -1⟩), ("k", ⟨1, 0⟩), ("self", ⟨0, 0⟩)],
      .ofList [("k", ⟨1, 0⟩), ("self", ⟨0, 0⟩)]⟩,
    ⟨default, 3, .ofList [("k", ⟨-1, 0⟩), ("other", ⟨1, 0⟩)], .ofList [("k", ⟨-1, 0⟩)]⟩]
  size_cells := rfl

theorem removeBonds_exact_of_linkedBothWays :
    linkedBothWays.gap? = none ∧ linkedBothWays.contains ⟨0, 0⟩ = true ∧
      (linkedBothWays.removeBonds ⟨0, 0⟩).2.outgoing? ⟨1, 0⟩ "other" = some ⟨1, 0⟩ ∧
      (linkedBothWays.removeBonds ⟨0, 0⟩).1.Perm [⟨1, 0⟩, ⟨1, 0⟩] := by
  have hgap : linkedBothWays.gap? = none := by decide +kernel
  have hin : linkedBothWays.contains ⟨0, 0⟩ = true := by decide
  obtain ⟨hg, -, htold⟩ := removeBonds_exact hgap hin
  have hother := hg.leaves ⟨⟨1, 0⟩, ⟨2, 0⟩, "other"⟩
  have hshared : (linkedBothWays.sharedBonds ⟨0, 0⟩).map (·.partner ⟨0, 0⟩) =
      [⟨1, 0⟩, ⟨1, 0⟩] := by decide +kernel
  refine ⟨hgap, hin, leaves_field.mp (hother.mpr ⟨leaves_field.mpr ?_, by decide⟩),
    hshared ▸ htold⟩
  decide +kernel

end Grid

end ParticleAutomaton
