import ParticleAutomaton.Proofs.BondField

namespace ParticleAutomaton.Grid

/-- The bonds of the cells of a grid. -/
def field (g : Grid) : BondField := fun p => (g.get? p).map (·.bonds)

theorem holds_field {g : Grid} {p : Point} : g.field.Holds p ↔ g.contains p = true := by
  simp [BondField.Holds, field, isSome_get?]

theorem field_modifyBonds (g : Grid) (p : Point) (f : CellBonds → CellBonds) :
    (g.modifyBonds p f).field = g.field.edit p f := by
  funext q
  simp only [field, modifyBonds, get?_modify, BondField.edit]
  split
  next => simp [Function.comp_def]
  next => rfl

/-- A change that leaves the bonds of a cell alone. -/
theorem field_modify {g : Grid} {p : Point} {f : Cell → Cell} (h : ∀ c, (f c).bonds = c.bonds) :
    (g.modify p f).field = g.field := by
  funext q
  simp only [field, get?_modify]
  split
  next => simp [Function.comp_def, h]
  next => rfl

theorem field_removeBond (g : Grid) (b : Bond) : (g.removeBond b).field = g.field.drop b := by
  rw [removeBond, field_modifyBonds, field_modifyBonds]
  rfl

theorem field_writeBond (g : Grid) (b : Bond) : (g.writeBond b).field = g.field.write b := by
  rw [writeBond, field_modifyBonds, field_modifyBonds]
  rfl

theorem leaves_field {g : Grid} {b : Bond} :
    g.field.Leaves b ↔ g.outgoing? b.origin b.name = some (b.destination - b.origin) := by
  unfold BondField.Leaves field outgoing?
  cases g.get? b.origin <;> simp

theorem enters_field {g : Grid} {b : Bond} :
    g.field.Enters b ↔ g.incoming? b.destination b.name = some (b.origin - b.destination) := by
  unfold BondField.Enters field incoming?
  cases g.get? b.destination <;> simp

/-- The particles of all cells with their numbers of writes. -/
def states (g : Grid) : Array (ParticleId × Nat) := g.cells.map fun c => (c.particle, c.writes)

/-- Two grids differ in their bonds at most. -/
structure SameStates (g h : Grid) : Prop where
  width : h.width = g.width
  height : h.height = g.height
  states : h.states = g.states

namespace SameStates

theorem refl (g : Grid) : SameStates g g := ⟨rfl, rfl, rfl⟩

theorem trans {g h k : Grid} (h₁ : SameStates g h) (h₂ : SameStates h k) : SameStates g k :=
  ⟨h₂.width.trans h₁.width, h₂.height.trans h₁.height, h₂.states.trans h₁.states⟩

theorem index? {g h : Grid} (e : SameStates g h) (p : Point) : h.index? p = g.index? p := by
  simp [Grid.index?, e.width, e.height]

theorem contains {g h : Grid} (e : SameStates g h) (p : Point) : h.contains p = g.contains p := by
  simp [Grid.contains, e.index? p]

theorem get? {g h : Grid} (e : SameStates g h) {p : Point} {c : Cell} (hc : g.get? p = some c) :
    ∃ d, h.get? p = some d ∧ d.particle = c.particle ∧ d.writes = c.writes := by
  obtain ⟨d, hd⟩ := get?_of_contains ((e.contains p).trans (contains_of_get? hc))
  refine ⟨d, hd, ?_⟩
  obtain ⟨i, hi⟩ := Option.isSome_iff_exists.mp (contains_of_get? hc)
  rw [get?_of_index? hi] at hc
  rw [get?_of_index? ((e.index? p).trans hi)] at hd
  have hs : h.states[i]? = g.states[i]? := by rw [e.states]
  simp only [Grid.states, Array.getElem?_map, hc, hd, Option.map_some, Option.some.injEq,
    Prod.mk.injEq] at hs
  exact hs

theorem modifyBonds (g : Grid) (p : Point) (f : CellBonds → CellBonds) :
    SameStates g (g.modifyBonds p f) := by
  refine ⟨width_modify .., height_modify .., ?_⟩
  unfold Grid.modifyBonds modify
  split
  next => rfl
  next i hi =>
    refine Array.ext (by simp [Grid.states]) fun j _ _ => ?_
    simp only [Grid.states, Array.getElem_map, Array.getElem_modify]
    split <;> rfl

end SameStates

/-- To drop a bond that does not stand at a place changes nothing. -/
theorem edit_dropOutgoing_of_ne {g : Grid} {p o : Point} {name : String}
    (h : g.outgoing? p name ≠ some o) : g.field.edit p (·.dropOutgoing name o) = g.field := by
  funext q
  unfold BondField.edit
  split
  next hq =>
    subst hq
    cases hc : g.get? q with
    | none => simp [field, hc]
    | some c =>
      have hi : c.bonds.outgoing.get? name ≠ some o := by simpa [outgoing?, hc] using h
      simp [field, hc, CellBonds.dropOutgoing, hi]
  next => rfl

theorem edit_dropIncoming_of_ne {g : Grid} {p o : Point} {name : String}
    (h : g.incoming? p name ≠ some o) : g.field.edit p (·.dropIncoming name o) = g.field := by
  funext q
  unfold BondField.edit
  split
  next hq =>
    subst hq
    cases hc : g.get? q with
    | none => simp [field, hc]
    | some c =>
      have hi : c.bonds.incoming.get? name ≠ some o := by simpa [incoming?, hc] using h
      simp [field, hc, CellBonds.dropIncoming, hi]
  next => rfl

theorem edit_dropOutgoing_of_eq {g : Grid} {p o : Point} {name : String}
    (h : g.outgoing? p name = some o) :
    g.field.edit p (·.dropOutgoing name o) =
      g.field.edit p fun b => { b with outgoing := b.outgoing.erase name } := by
  funext q
  unfold BondField.edit
  split
  next hq =>
    subst hq
    obtain ⟨c, hc, hi⟩ := Option.bind_eq_some_iff.mp h
    simp [field, hc, CellBonds.dropOutgoing, hi]
  next => rfl

theorem edit_dropIncoming_of_eq {g : Grid} {p o : Point} {name : String}
    (h : g.incoming? p name = some o) :
    g.field.edit p (·.dropIncoming name o) =
      g.field.edit p fun b => { b with incoming := b.incoming.erase name } := by
  funext q
  unfold BondField.edit
  split
  next hq =>
    subst hq
    obtain ⟨c, hc, hi⟩ := Option.bind_eq_some_iff.mp h
    simp [field, hc, CellBonds.dropIncoming, hi]
  next => rfl

theorem field_unlinkOutgoing (p : Point) (s : List Point × Grid) (e : String × Point) :
    (unlinkOutgoing p s e).2.field = s.2.field.edit (p + e.2) (·.dropIncoming e.1 (-e.2)) := by
  unfold unlinkOutgoing
  simp only
  split
  next h => rw [edit_dropIncoming_of_eq h, field_modifyBonds]
  next h => rw [edit_dropIncoming_of_ne h]

theorem field_unlinkIncoming (p : Point) (s : List Point × Grid) (e : String × Point) :
    (unlinkIncoming p s e).2.field = s.2.field.edit (p + e.2) (·.dropOutgoing e.1 (-e.2)) := by
  unfold unlinkIncoming
  simp only
  split
  next h => rw [edit_dropOutgoing_of_eq h, field_modifyBonds]
  next h => rw [edit_dropOutgoing_of_ne h]

theorem sameStates_unlinkOutgoing (p : Point) (s : List Point × Grid) (e : String × Point) :
    SameStates s.2 (unlinkOutgoing p s e).2 := by
  unfold unlinkOutgoing
  simp only
  split
  · exact SameStates.modifyBonds s.2 (p + e.2) fun b => { b with incoming := b.incoming.erase e.1 }
  · exact SameStates.refl s.2

theorem sameStates_unlinkIncoming (p : Point) (s : List Point × Grid) (e : String × Point) :
    SameStates s.2 (unlinkIncoming p s e).2 := by
  unfold unlinkIncoming
  simp only
  split
  · exact SameStates.modifyBonds s.2 (p + e.2) fun b => { b with outgoing := b.outgoing.erase e.1 }
  · exact SameStates.refl s.2

/-- Outgoing bonds of a place are taken from the places that they enter. -/
theorem unlinkOutgoing_fold (p : Point) (es : List (String × Point)) (s : List Point × Grid) :
    SameStates s.2 (es.foldl (unlinkOutgoing p) s).2 ∧
      (∀ b, (es.foldl (unlinkOutgoing p) s).2.field.Leaves b ↔ s.2.field.Leaves b) ∧
      ∀ b, (es.foldl (unlinkOutgoing p) s).2.field.Enters b ↔
        s.2.field.Enters b ∧ ¬ (b.origin = p ∧ (b.name, b.destination - b.origin) ∈ es) := by
  induction es generalizing s with
  | nil => exact ⟨SameStates.refl _, fun b => Iff.rfl, fun b => by simp⟩
  | cons e es ih =>
    obtain ⟨hs, hl, he⟩ := ih (unlinkOutgoing p s e)
    refine ⟨(sameStates_unlinkOutgoing p s e).trans hs, fun b => ?_, fun b => ?_⟩
    · rw [List.foldl_cons, hl, field_unlinkOutgoing,
        BondField.leaves_edit_of_outgoing fun _ => CellBonds.outgoing_dropIncoming ..]
    · rw [List.foldl_cons, he, field_unlinkOutgoing, BondField.enters_edit_dropIncoming]
      have hp : b.destination = p + e.2 ∧ b.name = e.1 ∧ b.origin - b.destination = -e.2 ↔
          b.origin = p ∧ (b.name, b.destination - b.origin) = e := by
        constructor
        · rintro ⟨hd, hn, ho⟩
          rw [hd, ← Point.sub_add_self p] at ho
          have hop := Point.sub_left_inj.mp ho
          exact ⟨hop, by rw [hn, hd, hop, Point.add_sub_self]⟩
        · rintro ⟨rfl, rfl⟩
          exact ⟨(Point.add_sub_cancel ..).symm, rfl, (Point.neg_sub ..).symm⟩
      rw [hp, List.mem_cons]
      grind

/-- Incoming bonds of a place are taken from the places that they leave. -/
theorem unlinkIncoming_fold (p : Point) (es : List (String × Point)) (s : List Point × Grid) :
    SameStates s.2 (es.foldl (unlinkIncoming p) s).2 ∧
      (∀ b, (es.foldl (unlinkIncoming p) s).2.field.Enters b ↔ s.2.field.Enters b) ∧
      ∀ b, (es.foldl (unlinkIncoming p) s).2.field.Leaves b ↔
        s.2.field.Leaves b ∧ ¬ (b.destination = p ∧ (b.name, b.origin - b.destination) ∈ es) := by
  induction es generalizing s with
  | nil => exact ⟨SameStates.refl _, fun b => Iff.rfl, fun b => by simp⟩
  | cons e es ih =>
    obtain ⟨hs, he, hl⟩ := ih (unlinkIncoming p s e)
    refine ⟨(sameStates_unlinkIncoming p s e).trans hs, fun b => ?_, fun b => ?_⟩
    · rw [List.foldl_cons, he, field_unlinkIncoming,
        BondField.enters_edit_of_incoming fun _ => CellBonds.incoming_dropOutgoing ..]
    · rw [List.foldl_cons, hl, field_unlinkIncoming, BondField.leaves_edit_dropOutgoing]
      have hp : b.origin = p + e.2 ∧ b.name = e.1 ∧ b.destination - b.origin = -e.2 ↔
          b.destination = p ∧ (b.name, b.origin - b.destination) = e := by
        constructor
        · rintro ⟨ho, hn, hd⟩
          rw [ho, ← Point.sub_add_self p] at hd
          have hdp := Point.sub_left_inj.mp hd
          exact ⟨hdp, by rw [hn, ho, hdp, Point.add_sub_self]⟩
        · rintro ⟨rfl, rfl⟩
          exact ⟨(Point.add_sub_cancel ..).symm, rfl, (Point.neg_sub ..).symm⟩
      rw [hp, List.mem_cons]
      grind

theorem sameStates_removeBonds (g : Grid) (p : Point) : SameStates g (g.removeBonds p).2 := by
  unfold removeBonds
  split
  next => exact SameStates.refl _
  next c _ =>
    have hm := SameStates.modifyBonds g p fun _ => .empty
    have ho := (unlinkOutgoing_fold p c.bonds.outgoing.entries
      ([], g.modifyBonds p fun _ => .empty)).1
    exact (hm.trans ho).trans (unlinkIncoming_fold p _ _).1

/-- What leaves a place after all bonds of a place are taken off. -/
theorem leaves_removeBonds {g : Grid} {p : Point} {b : Bond} :
    (g.removeBonds p).2.field.Leaves b ↔
      g.field.Leaves b ∧ b.origin ≠ p ∧ ¬ (b.destination = p ∧ g.field.Enters b) := by
  unfold removeBonds
  split
  next hn =>
    have ho : g.field.Leaves b → b.origin ≠ p := by
      rintro ⟨c, hc, -⟩ rfl
      simp [field, hn] at hc
    have hd : ¬ (b.destination = p ∧ g.field.Enters b) := by
      rintro ⟨rfl, c, hc, -⟩
      simp [field, hn] at hc
    simp only [hd, not_false_eq_true, and_true]
    exact ⟨fun h => ⟨h, ho h⟩, And.left⟩
  next c hc =>
    simp only
    rw [(unlinkIncoming_fold p _ _).2.2, (unlinkOutgoing_fold p _ _).2.1, field_modifyBonds,
      NameMap.mem_entries_iff]
    have he : b.destination = p → (c.bonds.incoming.get? b.name = some (b.origin - b.destination) ↔
        g.field.Enters b) := by
      rintro rfl
      rw [enters_field, incoming?, hc]
      rfl
    rw [BondField.leaves_edit_empty, and_assoc]
    refine and_congr_right fun _ => and_congr_right fun _ => not_congr ?_
    exact and_congr_right he

theorem enters_removeBonds {g : Grid} {p : Point} {b : Bond} :
    (g.removeBonds p).2.field.Enters b ↔
      g.field.Enters b ∧ b.destination ≠ p ∧ ¬ (b.origin = p ∧ g.field.Leaves b) := by
  unfold removeBonds
  split
  next hn =>
    have hd : g.field.Enters b → b.destination ≠ p := by
      rintro ⟨c, hc, -⟩ rfl
      simp [field, hn] at hc
    have ho : ¬ (b.origin = p ∧ g.field.Leaves b) := by
      rintro ⟨rfl, c, hc, -⟩
      simp [field, hn] at hc
    simp only [ho, not_false_eq_true, and_true]
    exact ⟨fun h => ⟨h, hd h⟩, And.left⟩
  next c hc =>
    simp only
    rw [(unlinkIncoming_fold p _ _).2.1, (unlinkOutgoing_fold p _ _).2.2, field_modifyBonds,
      NameMap.mem_entries_iff]
    have hl : b.origin = p → (c.bonds.outgoing.get? b.name = some (b.destination - b.origin) ↔
        g.field.Leaves b) := by
      rintro rfl
      rw [leaves_field, outgoing?, hc]
      rfl
    rw [BondField.enters_edit_empty, and_assoc]
    refine and_congr_right fun _ => and_congr_right fun _ => not_congr ?_
    exact and_congr_right hl

theorem holds_removeBonds {g : Grid} {p q : Point} :
    (g.removeBonds p).2.field.Holds q ↔ g.field.Holds q := by
  rw [holds_field, holds_field, (sameStates_removeBonds g p).contains]

theorem mirrored_removeBonds {g : Grid} (h : g.field.Mirrored) (p : Point) :
    (g.removeBonds p).2.field.Mirrored := by
  intro b ho hd
  have hm := h b (holds_removeBonds.mp ho) (holds_removeBonds.mp hd)
  rw [leaves_removeBonds, enters_removeBonds]
  grind

theorem mem_outgoing_iff {g : Grid} {b : Bond} {c : Cell} (hc : g.get? b.origin = some c) :
    (b.name, b.destination - b.origin) ∈ c.bonds.outgoing.entries ↔ g.field.Leaves b := by
  rw [NameMap.mem_entries_iff, leaves_field, outgoing?, hc]
  rfl

theorem mem_incoming_iff {g : Grid} {b : Bond} {c : Cell} (hc : g.get? b.destination = some c) :
    (b.name, b.origin - b.destination) ∈ c.bonds.incoming.entries ↔ g.field.Enters b := by
  rw [NameMap.mem_entries_iff, enters_field, incoming?, hc]
  rfl

theorem gapAt?_eq_none_iff {g : Grid} {p : Point} {c : Cell} (hc : g.get? p = some c) :
    g.gapAt? p c = none ↔
      (∀ b, b.origin = p → g.field.Leaves b → g.field.Holds b.destination → g.field.Enters b) ∧
        ∀ b, b.destination = p → g.field.Enters b → g.field.Holds b.origin → g.field.Leaves b := by
  simp only [gapAt?, Option.or_eq_none_iff, List.findSome?_eq_none_iff, ite_eq_right_iff,
    reduceCtorEq, imp_false, not_and, not_not, Prod.forall]
  refine and_congr ⟨?_, ?_⟩ ⟨?_, ?_⟩
  · rintro h b rfl hl hd
    have hi := h _ _ ((mem_outgoing_iff hc).mpr hl)
    rw [Point.add_sub_cancel, Point.neg_sub] at hi
    exact enters_field.mpr (hi (holds_field.mp hd))
  · intro h name o hm hd
    have hl := (mem_outgoing_iff (b := ⟨p, p + o, name⟩) hc).mp (by rwa [Point.add_sub_self])
    have hi := enters_field.mp (h ⟨p, p + o, name⟩ rfl hl (holds_field.mpr hd))
    rwa [Point.sub_add_self] at hi
  · rintro h b rfl he ho
    have hi := h _ _ ((mem_incoming_iff hc).mpr he)
    rw [Point.add_sub_cancel, Point.neg_sub] at hi
    exact leaves_field.mpr (hi (holds_field.mp ho))
  · intro h name o hm ho
    have he := (mem_incoming_iff (b := ⟨p + o, p, name⟩) hc).mp (by rwa [Point.add_sub_self])
    have hi := leaves_field.mp (h ⟨p + o, p, name⟩ rfl he (holds_field.mpr ho))
    rwa [Point.sub_add_self] at hi

/-- The search for a gap finds none exactly where all bonds are mirrored. -/
theorem gap?_eq_none_iff {g : Grid} : g.gap? = none ↔ g.field.Mirrored := by
  simp only [gap?, List.findSome?_eq_none_iff, Prod.forall, mem_toList]
  constructor
  · intro h b ho hd
    obtain ⟨c, hc⟩ := get?_of_contains (holds_field.mp ho)
    obtain ⟨d, hd'⟩ := get?_of_contains (holds_field.mp hd)
    exact ⟨fun hl => ((gapAt?_eq_none_iff hc).mp (h _ _ hc)).1 b rfl hl hd,
      fun he => ((gapAt?_eq_none_iff hd').mp (h _ _ hd')).2 b rfl he ho⟩
  · intro h p c hc
    refine (gapAt?_eq_none_iff hc).mpr ⟨?_, ?_⟩
    · rintro b rfl hl hd
      exact (h b hl.holds hd).mp hl
    · rintro b rfl he ho
      exact (h b ho he.holds).mpr he

end ParticleAutomaton.Grid
