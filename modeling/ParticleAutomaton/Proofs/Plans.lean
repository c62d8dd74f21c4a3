import ParticleAutomaton.Proofs.GridBonds
import ParticleAutomaton.Update.Plan

namespace ParticleAutomaton.Plan

theorem lookup_insertEdit (p q : Point) (b : CellBonds) (es : List (Point × CellBonds)) :
    (insertEdit p b es).lookup q = if q = p then some b else es.lookup q := by
  induction es with
  | nil =>
    by_cases h : q = p
    · simp [insertEdit, h]
    · simp [insertEdit, h]
  | cons e rest ih =>
    obtain ⟨r, c⟩ := e
    unfold insertEdit
    split
    next hr =>
      subst hr
      by_cases h : q = r
      · simp [h]
      · rw [lookup_cons_ne h, lookup_cons_ne h, if_neg h]
    next hr =>
      split
      next =>
        by_cases h : q = p
        · simp [h]
        · rw [lookup_cons_ne h, if_neg h]
      next =>
        by_cases h : q = r
        · subst h
          simp [hr]
        · rw [lookup_cons_ne h, lookup_cons_ne h, ih]

theorem mem_insertEdit {p : Point} {b : CellBonds} {es : List (Point × CellBonds)}
    {e : Point × CellBonds} (h : e ∈ insertEdit p b es) : e = (p, b) ∨ e ∈ es := by
  induction es with
  | nil => simpa [insertEdit] using h
  | cons d rest ih =>
    obtain ⟨r, c⟩ := d
    unfold insertEdit at h
    split at h
    next =>
      simp only [List.mem_cons] at h ⊢
      exact h.imp_right Or.inr
    next =>
      split at h
      next => simpa only [List.mem_cons] using h
      next =>
        rcases List.mem_cons.mp h with h | h
        · exact Or.inr (List.mem_cons.mpr (Or.inl h))
        · exact (ih h).imp_right (List.mem_cons_of_mem _)

theorem ordered_insertEdit {p : Point} {b : CellBonds} {es : List (Point × CellBonds)}
    (h : es.Pairwise fun d e => d.1.before e.1 = true) :
    (insertEdit p b es).Pairwise fun d e => d.1.before e.1 = true := by
  induction es with
  | nil => simp [insertEdit]
  | cons d rest ih =>
    obtain ⟨r, c⟩ := d
    obtain ⟨hr, hs⟩ := List.pairwise_cons.mp h
    unfold insertEdit
    split
    next he => exact List.pairwise_cons.mpr ⟨fun e hm => he ▸ hr e hm, hs⟩
    next hne =>
      split
      next hb =>
        refine List.pairwise_cons.mpr ⟨fun e hm => ?_, h⟩
        rcases List.mem_cons.mp hm with hm | hm
        · exact hm ▸ hb
        · exact Point.before_trans hb (hr e hm)
      next hb =>
        refine List.pairwise_cons.mpr ⟨fun e hm => ?_, ih hs⟩
        rcases mem_insertEdit hm with hm | hm
        · exact hm ▸ Point.before_of_not (Bool.eq_false_iff.mpr hb) (Ne.symm hne)
        · exact hr e hm

/-- The bonds that all places are going to have. -/
def field (plan : Plan) (g : Grid) : BondField := fun p => plan.bondsAt g p

/-- The places of a plan are on the grid, and each stands in it once. -/
structure WellFormed (plan : Plan) (g : Grid) : Prop where
  ordered : plan.edits.Pairwise fun d e => d.1.before e.1 = true
  onGrid : ∀ e ∈ plan.edits, g.contains e.1 = true

theorem wellFormed_empty (g : Grid) : empty.WellFormed g := ⟨.nil, by simp [empty]⟩

theorem field_empty (g : Grid) : empty.field g = g.field := rfl

theorem mem_of_get? {plan : Plan} {p : Point} {b : CellBonds} (h : plan.get? p = some b) :
    (p, b) ∈ plan.edits := by
  obtain ⟨front, back, he, -⟩ := List.lookup_eq_some_iff.mp h
  rw [he]
  simp

theorem holds_field {plan : Plan} {g : Grid} (h : plan.WellFormed g) {p : Point} :
    (plan.field g).Holds p ↔ g.contains p = true := by
  unfold BondField.Holds field bondsAt
  cases hp : plan.get? p with
  | none => simp [Grid.isSome_get?]
  | some b => simpa using h.onGrid _ (mem_of_get? hp)

theorem field_edit (plan : Plan) (g : Grid) (p : Point) (f : CellBonds → CellBonds) :
    (plan.edit g p f).field g = (plan.field g).edit p f := by
  funext q
  unfold edit
  split
  next hn =>
    unfold BondField.edit
    split
    next hq =>
      subst hq
      have hb : plan.field g q = none := hn
      rw [hb]
      rfl
    next => rfl
  next b hb =>
    have hs : plan.field g p = some b := hb
    by_cases hq : q = p
    · subst hq
      rw [BondField.edit_self, hs, field, bondsAt, get?, lookup_insertEdit, if_pos rfl]
      rfl
    · rw [BondField.edit_of_ne hq, field, field, bondsAt, get?, lookup_insertEdit, if_neg hq]
      rfl

theorem get?_edit (plan : Plan) (g : Grid) (p : Point) (f : CellBonds → CellBonds) :
    (plan.edit g p f).get? p = (plan.field g p).map f := by
  unfold edit
  split
  next hn =>
    have hb : plan.field g p = none := hn
    rw [hb]
    exact (Option.or_eq_none_iff.mp hn).1
  next b hb =>
    have hs : plan.field g p = some b := hb
    rw [hs, get?, lookup_insertEdit, if_pos rfl]
    rfl

theorem WellFormed.edit {plan : Plan} {g : Grid} (h : plan.WellFormed g) (p : Point)
    (f : CellBonds → CellBonds) : (plan.edit g p f).WellFormed g := by
  unfold Plan.edit
  split
  next => exact h
  next b hb =>
    refine ⟨ordered_insertEdit h.ordered, fun e he => ?_⟩
    rcases mem_insertEdit he with rfl | he
    · rw [← holds_field h, BondField.Holds, show plan.field g p = some b from hb]
      rfl
    · exact h.onGrid e he

theorem field_drop (g : Grid) (plan : Plan) (b : Bond) :
    (drop g plan b).field g = (plan.field g).drop b := by
  rw [drop, field_edit, field_edit]
  rfl

theorem WellFormed.drop {plan : Plan} {g : Grid} (h : plan.WellFormed g) (b : Bond) :
    (Plan.drop g plan b).WellFormed g := (h.edit _ _).edit _ _

/-- Drops the bond to a partner, unless the partner stays. -/
def makeWay (g : Grid) (plan : Plan) (partner : Option Point) (stays : Point)
    (bond : Point → Bond) : Plan :=
  match partner with
  | some old => if old = stays then plan else drop g plan (bond old)
  | none => plan

theorem field_makeWay (g : Grid) (plan : Plan) (partner : Option Point) (stays : Point)
    (bond : Point → Bond) :
    (makeWay g plan partner stays bond).field g =
      (plan.field g).dropAny ((partner.filter (· ≠ stays)).map bond) := by
  unfold makeWay
  cases partner with
  | none => rfl
  | some old =>
    by_cases h : old = stays
    · simp [h, BondField.dropAny, Option.filter_some]
    · simp [h, BondField.dropAny, Option.filter_some, field_drop]

theorem WellFormed.makeWay {plan : Plan} {g : Grid} (h : plan.WellFormed g) (partner : Option Point)
    (stays : Point) (bond : Point → Bond) : (makeWay g plan partner stays bond).WellFormed g := by
  unfold Plan.makeWay
  split
  next =>
    split
    next => exact h
    next => exact h.drop _
  next => exact h

theorem add_eq (g : Grid) (plan : Plan) (b : Bond) :
    add g plan b =
      let near := (plan.edit g b.origin id).makeWay g
        (((plan.field g).leaving? b.origin b.name).map (·.destination)) b.destination
        fun old => ⟨b.origin, old, b.name⟩
      let far := (near.edit g b.destination id).makeWay g
        (((near.field g).entering? b.destination b.name).map (·.origin)) b.origin
        fun old => ⟨old, b.destination, b.name⟩
      (far.edit g b.origin (·.addOutgoing b.name (b.destination - b.origin))).edit g
        b.destination (·.addIncoming b.name (b.origin - b.destination)) := by
  unfold add
  simp only [get?_edit, BondField.leaving?, BondField.entering?, Option.map_id, Option.map_map,
    Function.comp_def, id_eq]
  rfl

theorem WellFormed.add {plan : Plan} {g : Grid} (h : plan.WellFormed g) (b : Bond) :
    (Plan.add g plan b).WellFormed g := by
  rw [add_eq]
  exact (((((h.edit _ _).makeWay _ _ _).edit _ _).makeWay _ _ _).edit _ _).edit _ _

/-- What makes way at the origin of a bond is the other bond of its name that leaves it. -/
theorem leavingOther_eq_some_iff {F : BondField} {b k : Bond} :
    ((((F.leaving? b.origin b.name).map (·.destination)).filter (· ≠ b.destination)).map
      fun old => (⟨b.origin, old, b.name⟩ : Bond)) = some k ↔
        F.leaving? b.origin b.name = some k ∧ k ≠ b := by
  simp only [Option.map_eq_some_iff, Option.filter_eq_some_iff, decide_eq_true_eq]
  constructor
  · rintro ⟨old, ⟨⟨c, hc, rfl⟩, hne⟩, rfl⟩
    obtain ⟨-, ho, hn⟩ := BondField.leaving?_eq_some_iff.mp hc
    have hk : (⟨b.origin, c.destination, b.name⟩ : Bond) = c :=
      BondField.bond_ext_iff.mpr ⟨ho.symm, rfl, hn.symm⟩
    rw [hk]
    exact ⟨hc, fun he => hne (he ▸ rfl)⟩
  · rintro ⟨hk, hne⟩
    obtain ⟨-, ho, hn⟩ := BondField.leaving?_eq_some_iff.mp hk
    refine ⟨k.destination, ⟨⟨k, hk, rfl⟩, fun hd => ?_⟩, ?_⟩
    · exact hne (BondField.bond_ext_iff.mpr ⟨ho, hd, hn⟩)
    · exact BondField.bond_ext_iff.mpr ⟨ho.symm, rfl, hn.symm⟩

/-- What makes way at the destination of a bond is the other bond of its name that enters it. -/
theorem enteringOther_eq_some_iff {F : BondField} {b k : Bond} :
    ((((F.entering? b.destination b.name).map (·.origin)).filter (· ≠ b.origin)).map
      fun old => (⟨old, b.destination, b.name⟩ : Bond)) = some k ↔
        F.entering? b.destination b.name = some k ∧ k ≠ b := by
  simp only [Option.map_eq_some_iff, Option.filter_eq_some_iff, decide_eq_true_eq]
  constructor
  · rintro ⟨old, ⟨⟨c, hc, rfl⟩, hne⟩, rfl⟩
    obtain ⟨-, hd, hn⟩ := BondField.entering?_eq_some_iff.mp hc
    have hk : (⟨c.origin, b.destination, b.name⟩ : Bond) = c :=
      BondField.bond_ext_iff.mpr ⟨rfl, hd.symm, hn.symm⟩
    rw [hk]
    exact ⟨hc, fun he => hne (he ▸ rfl)⟩
  · rintro ⟨hk, hne⟩
    obtain ⟨-, hd, hn⟩ := BondField.entering?_eq_some_iff.mp hk
    refine ⟨k.origin, ⟨⟨k, hk, rfl⟩, fun ho => ?_⟩, ?_⟩
    · exact hne (BondField.bond_ext_iff.mpr ⟨ho, hd, hn⟩)
    · exact BondField.bond_ext_iff.mpr ⟨rfl, hd.symm, hn.symm⟩

/-- A bond is written after the other bonds of its name that leave its origin or enter its
destination are dropped. -/
theorem field_add (g : Grid) (plan : Plan) (b : Bond) :
    ∃ out into : Option Bond,
      (∀ k, out = some k ↔ (plan.field g).leaving? b.origin b.name = some k ∧ k ≠ b) ∧
      (∀ k, into = some k ↔
        ((plan.field g).dropAny out).entering? b.destination b.name = some k ∧ k ≠ b) ∧
      (add g plan b).field g = (((plan.field g).dropAny out).dropAny into).write b := by
  rw [add_eq]
  simp only [field_edit, field_makeWay, BondField.edit_id]
  exact ⟨_, _, fun _ => leavingOther_eq_some_iff, fun _ => enteringOther_eq_some_iff, rfl⟩

theorem mirrored_add {plan : Plan} {g : Grid} (h : (plan.field g).Mirrored) (b : Bond) :
    ((add g plan b).field g).Mirrored := by
  obtain ⟨out, into, hout, hinto, hfield⟩ := field_add g plan b
  rw [hfield]
  refine h.displace (fun c hc => ?_) (fun c hc => ?_)
  · exact or_iff_not_imp_left.mpr fun hne => (hout c).mpr ⟨hc, hne⟩
  · exact or_iff_not_imp_left.mpr fun hne => (hinto c).mpr ⟨hc, hne⟩

theorem mirrored_drops {g : Grid} {plan : Plan} (bonds : List Bond) (h : (plan.field g).Mirrored) :
    ((bonds.foldl (drop g) plan).field g).Mirrored := by
  induction bonds generalizing plan with
  | nil => exact h
  | cons b bonds ih => exact ih (field_drop g plan b ▸ h.drop b)

theorem mirrored_adds {g : Grid} {plan : Plan} (bonds : List Bond) (h : (plan.field g).Mirrored) :
    ((bonds.foldl (add g) plan).field g).Mirrored := by
  induction bonds generalizing plan with
  | nil => exact h
  | cons b bonds ih => exact ih (mirrored_add h b)

theorem leaves_drops (g : Grid) (bonds : List Bond) (plan : Plan) (k : Bond) :
    ((bonds.foldl (drop g) plan).field g).Leaves k ↔ (plan.field g).Leaves k ∧ k ∉ bonds := by
  induction bonds generalizing plan with
  | nil => simp
  | cons b bonds ih =>
    rw [List.foldl_cons, ih, field_drop, BondField.leaves_drop, List.mem_cons, not_or, and_assoc]

theorem enters_drops (g : Grid) (bonds : List Bond) (plan : Plan) (k : Bond) :
    ((bonds.foldl (drop g) plan).field g).Enters k ↔ (plan.field g).Enters k ∧ k ∉ bonds := by
  induction bonds generalizing plan with
  | nil => simp
  | cons b bonds ih =>
    rw [List.foldl_cons, ih, field_drop, BondField.enters_drop, List.mem_cons, not_or, and_assoc]

theorem wellFormed_drops {g : Grid} {plan : Plan} (bonds : List Bond) (h : plan.WellFormed g) :
    (bonds.foldl (drop g) plan).WellFormed g := by
  induction bonds generalizing plan with
  | nil => exact h
  | cons b bonds ih => exact ih (h.drop b)

theorem wellFormed_adds {g : Grid} {plan : Plan} (bonds : List Bond) (h : plan.WellFormed g) :
    (bonds.foldl (add g) plan).WellFormed g := by
  induction bonds generalizing plan with
  | nil => exact h
  | cons b bonds ih => exact ih (h.add b)

/-- Gives all places of a plan the bonds that they are going to have. -/
def carryOut (plan : Plan) (g : Grid) : Grid :=
  plan.edits.foldl (fun g (p, bonds) => g.modifyBonds p fun _ => bonds) g

theorem sameStates_edits (es : List (Point × CellBonds)) (g : Grid) :
    Grid.SameStates g (es.foldl (fun g (p, bonds) => g.modifyBonds p fun _ => bonds) g) := by
  induction es generalizing g with
  | nil => exact .refl g
  | cons e es ih => exact (Grid.SameStates.modifyBonds g e.1 fun _ => e.2).trans (ih _)

theorem sameStates_carryOut (plan : Plan) (g : Grid) : Grid.SameStates g (plan.carryOut g) :=
  sameStates_edits plan.edits g

theorem field_edits {es : List (Point × CellBonds)} {g : Grid}
    (ho : es.Pairwise fun d e => d.1.before e.1 = true) (hg : ∀ e ∈ es, g.contains e.1 = true)
    (q : Point) :
    (es.foldl (fun g (p, bonds) => g.modifyBonds p fun _ => bonds) g).field q =
      (es.lookup q).or (g.field q) := by
  induction es generalizing g with
  | nil => simp
  | cons e es ih =>
    obtain ⟨p, b⟩ := e
    obtain ⟨hp, ho⟩ := List.pairwise_cons.mp ho
    have hc : ∀ e ∈ es, (g.modifyBonds p fun _ => b).contains e.1 = true := by
      intro e he
      rw [Grid.modifyBonds, Grid.contains_modify]
      exact hg e (List.mem_cons_of_mem _ he)
    rw [List.foldl_cons, ih ho hc, Grid.field_modifyBonds]
    by_cases hq : q = p
    · subst hq
      have hn : es.lookup q = none := by
        refine List.lookup_eq_none_iff.mpr fun e he => ?_
        simpa using Point.ne_of_before (hp e he)
      obtain ⟨c, hc⟩ := Grid.get?_of_contains (hg (q, b) (List.mem_cons_self ..))
      simp [hn, BondField.edit_self, Grid.field, hc]
    · rw [lookup_cons_ne hq, BondField.edit_of_ne hq]

theorem field_carryOut {plan : Plan} {g : Grid} (h : plan.WellFormed g) :
    (plan.carryOut g).field = plan.field g :=
  funext (field_edits h.ordered h.onGrid)

end ParticleAutomaton.Plan
