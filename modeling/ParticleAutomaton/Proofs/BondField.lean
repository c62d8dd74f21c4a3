import ParticleAutomaton.Proofs.Cells
import ParticleAutomaton.Proofs.NameMap

namespace ParticleAutomaton

/-- The bonds that stand at each place, on a grid or under a plan. -/
def BondField : Type := Point → Option CellBonds

namespace BondField

def edit (F : BondField) (p : Point) (f : CellBonds → CellBonds) : BondField := fun q =>
  if q = p then (F q).map f else F q

def Holds (F : BondField) (p : Point) : Prop := (F p).isSome = true

/-- A bond stands at its origin. -/
def Leaves (F : BondField) (b : Bond) : Prop :=
  ∃ c, F b.origin = some c ∧ c.outgoing.get? b.name = some (b.destination - b.origin)

/-- A bond stands at its destination. -/
def Enters (F : BondField) (b : Bond) : Prop :=
  ∃ c, F b.destination = some c ∧ c.incoming.get? b.name = some (b.origin - b.destination)

/-- A bond between two places of the field stands at both of them or at none. -/
def Mirrored (F : BondField) : Prop :=
  ∀ b, F.Holds b.origin → F.Holds b.destination → (F.Leaves b ↔ F.Enters b)

def drop (F : BondField) (b : Bond) : BondField :=
  (F.edit b.origin (·.dropOutgoing b.name (b.destination - b.origin))).edit b.destination
    (·.dropIncoming b.name (b.origin - b.destination))

def write (F : BondField) (b : Bond) : BondField :=
  (F.edit b.origin (·.addOutgoing b.name (b.destination - b.origin))).edit b.destination
    (·.addIncoming b.name (b.origin - b.destination))

theorem edit_self (F : BondField) (p : Point) (f : CellBonds → CellBonds) :
    F.edit p f p = (F p).map f := if_pos rfl

theorem edit_of_ne {F : BondField} {p q : Point} (h : q ≠ p) (f : CellBonds → CellBonds) :
    F.edit p f q = F q := if_neg h

theorem edit_id (F : BondField) (p : Point) : F.edit p id = F := by
  funext q
  unfold edit
  split <;> simp

theorem holds_edit {F : BondField} {p q : Point} {f : CellBonds → CellBonds} :
    (F.edit p f).Holds q ↔ F.Holds q := by
  unfold Holds edit
  split <;> simp

theorem Leaves.holds {F : BondField} {b : Bond} (h : F.Leaves b) : F.Holds b.origin := by
  obtain ⟨c, hc, -⟩ := h
  simp [Holds, hc]

theorem Enters.holds {F : BondField} {b : Bond} (h : F.Enters b) : F.Holds b.destination := by
  obtain ⟨c, hc, -⟩ := h
  simp [Holds, hc]

theorem leaves_edit_of_ne {F : BondField} {p : Point} {b : Bond} (h : b.origin ≠ p)
    (f : CellBonds → CellBonds) : (F.edit p f).Leaves b ↔ F.Leaves b := by
  unfold Leaves
  rw [edit_of_ne h]

theorem enters_edit_of_ne {F : BondField} {p : Point} {b : Bond} (h : b.destination ≠ p)
    (f : CellBonds → CellBonds) : (F.edit p f).Enters b ↔ F.Enters b := by
  unfold Enters
  rw [edit_of_ne h]

theorem leaves_edit_self {F : BondField} {b : Bond} {f : CellBonds → CellBonds} :
    (F.edit b.origin f).Leaves b ↔
      ∃ c, F b.origin = some c ∧ (f c).outgoing.get? b.name = some (b.destination - b.origin) := by
  unfold Leaves
  rw [edit_self]
  constructor
  · rintro ⟨c, hc, hg⟩
    obtain ⟨d, hd, rfl⟩ := Option.map_eq_some_iff.mp hc
    exact ⟨d, hd, hg⟩
  · rintro ⟨c, hc, hg⟩
    exact ⟨f c, by rw [hc]; rfl, hg⟩

theorem enters_edit_self {F : BondField} {b : Bond} {f : CellBonds → CellBonds} :
    (F.edit b.destination f).Enters b ↔
      ∃ c, F b.destination = some c ∧
        (f c).incoming.get? b.name = some (b.origin - b.destination) := by
  unfold Enters
  rw [edit_self]
  constructor
  · rintro ⟨c, hc, hg⟩
    obtain ⟨d, hd, rfl⟩ := Option.map_eq_some_iff.mp hc
    exact ⟨d, hd, hg⟩
  · rintro ⟨c, hc, hg⟩
    exact ⟨f c, by rw [hc]; rfl, hg⟩

/-- Nothing leaves a place without bonds. -/
theorem leaves_edit_empty {F : BondField} {p : Point} {b : Bond} :
    (F.edit p fun _ => .empty).Leaves b ↔ F.Leaves b ∧ b.origin ≠ p := by
  by_cases ho : b.origin = p
  · subst ho
    rw [leaves_edit_self]
    simp [CellBonds.empty, NameMap.get?_empty]
  · rw [leaves_edit_of_ne ho]
    simp [ho]

theorem enters_edit_empty {F : BondField} {p : Point} {b : Bond} :
    (F.edit p fun _ => .empty).Enters b ↔ F.Enters b ∧ b.destination ≠ p := by
  by_cases hd : b.destination = p
  · subst hd
    rw [enters_edit_self]
    simp [CellBonds.empty, NameMap.get?_empty]
  · rw [enters_edit_of_ne hd]
    simp [hd]

/-- A change of incoming bonds alone is no change of the outgoing ones. -/
theorem leaves_edit_of_outgoing {F : BondField} {p : Point} {b : Bond} {f : CellBonds → CellBonds}
    (h : ∀ c, (f c).outgoing = c.outgoing) : (F.edit p f).Leaves b ↔ F.Leaves b := by
  by_cases hp : b.origin = p
  · subst hp
    rw [leaves_edit_self]
    simp only [h, Leaves]
  · exact leaves_edit_of_ne hp f

theorem enters_edit_of_incoming {F : BondField} {p : Point} {b : Bond} {f : CellBonds → CellBonds}
    (h : ∀ c, (f c).incoming = c.incoming) : (F.edit p f).Enters b ↔ F.Enters b := by
  by_cases hp : b.destination = p
  · subst hp
    rw [enters_edit_self]
    simp only [h, Enters]
  · exact enters_edit_of_ne hp f

end BondField

namespace CellBonds

theorem incoming_dropOutgoing (b : CellBonds) (name : String) (o : Point) :
    (b.dropOutgoing name o).incoming = b.incoming := by
  unfold dropOutgoing
  split <;> rfl

theorem outgoing_dropIncoming (b : CellBonds) (name : String) (o : Point) :
    (b.dropIncoming name o).outgoing = b.outgoing := by
  unfold dropIncoming
  split <;> rfl

theorem incoming_addOutgoing (b : CellBonds) (name : String) (o : Point) :
    (b.addOutgoing name o).incoming = b.incoming := rfl

theorem outgoing_addIncoming (b : CellBonds) (name : String) (o : Point) :
    (b.addIncoming name o).outgoing = b.outgoing := rfl

theorem outgoing_dropOutgoing (b : CellBonds) (name other : String) (o o' : Point) :
    (b.dropOutgoing name o).outgoing.get? other = some o' ↔
      b.outgoing.get? other = some o' ∧ ¬ (other = name ∧ o' = o) := by
  unfold dropOutgoing
  split
  next h =>
    rw [NameMap.get?_erase]
    by_cases hn : other = name
    · subst hn
      simp only [h, if_true, Option.some.injEq]
      grind
    · simp [hn]
  next h => grind

theorem incoming_dropIncoming (b : CellBonds) (name other : String) (o o' : Point) :
    (b.dropIncoming name o).incoming.get? other = some o' ↔
      b.incoming.get? other = some o' ∧ ¬ (other = name ∧ o' = o) := by
  unfold dropIncoming
  split
  next h =>
    rw [NameMap.get?_erase]
    by_cases hn : other = name
    · subst hn
      simp only [h, if_true, Option.some.injEq]
      grind
    · simp [hn]
  next h => grind

end CellBonds

namespace BondField

theorem holds_drop {F : BondField} {b : Bond} {p : Point} : (F.drop b).Holds p ↔ F.Holds p :=
  holds_edit.trans holds_edit

theorem holds_write {F : BondField} {b : Bond} {p : Point} : (F.write b).Holds p ↔ F.Holds p :=
  holds_edit.trans holds_edit

theorem bond_ext_iff {b c : Bond} :
    c = b ↔ c.origin = b.origin ∧ c.destination = b.destination ∧ c.name = b.name := by
  cases b
  cases c
  simp

theorem leaves_edit_dropOutgoing {F : BondField} {p o : Point} {name : String} {b : Bond} :
    (F.edit p (·.dropOutgoing name o)).Leaves b ↔
      F.Leaves b ∧ ¬ (b.origin = p ∧ b.name = name ∧ b.destination - b.origin = o) := by
  by_cases hp : b.origin = p
  · subst hp
    rw [leaves_edit_self]
    simp only [CellBonds.outgoing_dropOutgoing, Leaves, true_and]
    grind
  · rw [leaves_edit_of_ne hp]
    simp [hp]

theorem enters_edit_dropIncoming {F : BondField} {p o : Point} {name : String} {b : Bond} :
    (F.edit p (·.dropIncoming name o)).Enters b ↔
      F.Enters b ∧ ¬ (b.destination = p ∧ b.name = name ∧ b.origin - b.destination = o) := by
  by_cases hp : b.destination = p
  · subst hp
    rw [enters_edit_self]
    simp only [CellBonds.incoming_dropIncoming, Enters, true_and]
    grind
  · rw [enters_edit_of_ne hp]
    simp [hp]

theorem leaves_edit_addOutgoing {F : BondField} {p o : Point} {name : String} {b : Bond} :
    (F.edit p (·.addOutgoing name o)).Leaves b ↔
      if b.origin = p ∧ b.name = name then F.Holds p ∧ b.destination - b.origin = o
      else F.Leaves b := by
  by_cases hp : b.origin = p
  · subst hp
    rw [leaves_edit_self]
    by_cases hn : b.name = name
    · simp only [CellBonds.addOutgoing, NameMap.get?_insert, hn, if_true, and_self, Holds,
        Option.isSome_iff_exists]
      grind
    · simp only [CellBonds.addOutgoing, NameMap.get?_insert, hn, if_false, and_false, Leaves]
  · rw [leaves_edit_of_ne hp]
    simp [hp]

theorem enters_edit_addIncoming {F : BondField} {p o : Point} {name : String} {b : Bond} :
    (F.edit p (·.addIncoming name o)).Enters b ↔
      if b.destination = p ∧ b.name = name then F.Holds p ∧ b.origin - b.destination = o
      else F.Enters b := by
  by_cases hp : b.destination = p
  · subst hp
    rw [enters_edit_self]
    by_cases hn : b.name = name
    · simp only [CellBonds.addIncoming, NameMap.get?_insert, hn, if_true, and_self, Holds,
        Option.isSome_iff_exists]
      grind
    · simp only [CellBonds.addIncoming, NameMap.get?_insert, hn, if_false, and_false, Enters]
  · rw [enters_edit_of_ne hp]
    simp [hp]

theorem leaves_drop {F : BondField} {b c : Bond} : (F.drop b).Leaves c ↔ F.Leaves c ∧ c ≠ b := by
  unfold drop
  rw [leaves_edit_of_outgoing fun _ => CellBonds.outgoing_dropIncoming .., leaves_edit_dropOutgoing,
    ne_eq, bond_ext_iff]
  refine and_congr_right fun _ => not_congr ⟨?_, ?_⟩
  · rintro ⟨ho, hn, hd⟩
    exact ⟨ho, Point.sub_left_inj.mp (ho ▸ hd), hn⟩
  · rintro ⟨ho, hd, hn⟩
    exact ⟨ho, hn, by rw [ho, hd]⟩

theorem enters_drop {F : BondField} {b c : Bond} : (F.drop b).Enters c ↔ F.Enters c ∧ c ≠ b := by
  unfold drop
  rw [enters_edit_dropIncoming, enters_edit_of_incoming fun _ => CellBonds.incoming_dropOutgoing ..,
    ne_eq, bond_ext_iff]
  refine and_congr_right fun _ => not_congr ⟨?_, ?_⟩
  · rintro ⟨hd, hn, ho⟩
    exact ⟨Point.sub_left_inj.mp (hd ▸ ho), hd, hn⟩
  · rintro ⟨ho, hd, hn⟩
    exact ⟨hd, hn, by rw [ho, hd]⟩

theorem leaves_write {F : BondField} {b c : Bond} :
    (F.write b).Leaves c ↔
      F.Holds b.origin ∧ c = b ∨ F.Leaves c ∧ ¬ (c.origin = b.origin ∧ c.name = b.name) := by
  unfold write
  rw [leaves_edit_of_outgoing fun _ => CellBonds.outgoing_addIncoming .., leaves_edit_addOutgoing]
  split
  next h =>
    simp only [h, bond_ext_iff, true_and, and_true, Point.sub_left_inj, not_true, and_false,
      or_false]
  next h =>
    have hne : c ≠ b := fun he => h ⟨he ▸ rfl, he ▸ rfl⟩
    simp [hne, h]

theorem enters_write {F : BondField} {b c : Bond} :
    (F.write b).Enters c ↔
      F.Holds b.destination ∧ c = b ∨
        F.Enters c ∧ ¬ (c.destination = b.destination ∧ c.name = b.name) := by
  unfold write
  rw [enters_edit_addIncoming]
  split
  next h =>
    simp only [h, bond_ext_iff, holds_edit, and_true, Point.sub_left_inj, not_true, and_false,
      or_false]
  next h =>
    rw [enters_edit_of_incoming fun _ => CellBonds.incoming_addOutgoing ..]
    have hne : c ≠ b := fun he => h ⟨he ▸ rfl, he ▸ rfl⟩
    simp [hne, h]

theorem Mirrored.drop {F : BondField} (h : F.Mirrored) (b : Bond) : (F.drop b).Mirrored := by
  intro c ho hd
  rw [leaves_drop, enters_drop, h c (holds_drop.mp ho) (holds_drop.mp hd)]

/-- A bond is written where no other one of its name leaves its origin or enters its destination. -/
theorem Mirrored.write {F : BondField} (h : F.Mirrored) {b : Bond}
    (hl : ∀ c, F.Leaves c → c.origin = b.origin → c.name = b.name → c = b)
    (he : ∀ c, F.Enters c → c.destination = b.destination → c.name = b.name → c = b) :
    (F.write b).Mirrored := by
  intro c ho hd
  have hm := h c (holds_write.mp ho) (holds_write.mp hd)
  rw [leaves_write, enters_write]
  by_cases hc : c = b
  · subst hc
    simp [holds_write.mp ho, holds_write.mp hd]
  · have hl' : F.Leaves c → ¬ (c.origin = b.origin ∧ c.name = b.name) :=
      fun hx hs => hc (hl c hx hs.1 hs.2)
    have he' : F.Enters c → ¬ (c.destination = b.destination ∧ c.name = b.name) :=
      fun hx hs => hc (he c hx hs.1 hs.2)
    grind

/-- The bond of a name that leaves a place. -/
def leaving? (F : BondField) (p : Point) (name : String) : Option Bond :=
  ((F p).bind fun c => c.outgoing.get? name).map fun o => ⟨p, p + o, name⟩

/-- The bond of a name that enters a place. -/
def entering? (F : BondField) (p : Point) (name : String) : Option Bond :=
  ((F p).bind fun c => c.incoming.get? name).map fun o => ⟨p + o, p, name⟩

theorem leaving?_eq_some_iff {F : BondField} {p : Point} {name : String} {b : Bond} :
    F.leaving? p name = some b ↔ F.Leaves b ∧ b.origin = p ∧ b.name = name := by
  unfold leaving? Leaves
  rw [Option.map_eq_some_iff]
  constructor
  · rintro ⟨o, ho, rfl⟩
    obtain ⟨c, hc, hg⟩ := Option.bind_eq_some_iff.mp ho
    exact ⟨⟨c, hc, by rwa [Point.add_sub_self]⟩, rfl, rfl⟩
  · rintro ⟨⟨c, hc, hg⟩, rfl, rfl⟩
    refine ⟨_, Option.bind_eq_some_iff.mpr ⟨c, hc, hg⟩, ?_⟩
    rw [Point.add_sub_cancel]

theorem entering?_eq_some_iff {F : BondField} {p : Point} {name : String} {b : Bond} :
    F.entering? p name = some b ↔ F.Enters b ∧ b.destination = p ∧ b.name = name := by
  unfold entering? Enters
  rw [Option.map_eq_some_iff]
  constructor
  · rintro ⟨o, ho, rfl⟩
    obtain ⟨c, hc, hg⟩ := Option.bind_eq_some_iff.mp ho
    exact ⟨⟨c, hc, by rwa [Point.add_sub_self]⟩, rfl, rfl⟩
  · rintro ⟨⟨c, hc, hg⟩, rfl, rfl⟩
    refine ⟨_, Option.bind_eq_some_iff.mpr ⟨c, hc, hg⟩, ?_⟩
    rw [Point.add_sub_cancel]

/-- Drops a bond if there is one. -/
def dropAny (F : BondField) (b : Option Bond) : BondField := b.elim F F.drop

theorem leaves_dropAny {F : BondField} {b : Option Bond} {c : Bond} :
    (F.dropAny b).Leaves c ↔ F.Leaves c ∧ b ≠ some c := by
  cases b with
  | none => simp [dropAny]
  | some b => rw [dropAny, Option.elim_some, leaves_drop, ne_eq, ne_eq, Option.some.injEq, eq_comm]

theorem enters_dropAny {F : BondField} {b : Option Bond} {c : Bond} :
    (F.dropAny b).Enters c ↔ F.Enters c ∧ b ≠ some c := by
  cases b with
  | none => simp [dropAny]
  | some b => rw [dropAny, Option.elim_some, enters_drop, ne_eq, ne_eq, Option.some.injEq, eq_comm]

theorem Mirrored.dropAny {F : BondField} (h : F.Mirrored) (b : Option Bond) :
    (F.dropAny b).Mirrored := by
  cases b with
  | none => exact h
  | some b => exact h.drop b

/-- Writes a bond after those of its name that leave its origin or enter its destination have made
way. -/
theorem Mirrored.displace {F : BondField} (h : F.Mirrored) {b : Bond} {out into : Option Bond}
    (ho : ∀ c, F.leaving? b.origin b.name = some c → c = b ∨ out = some c)
    (hi : ∀ c, (F.dropAny out).entering? b.destination b.name = some c → c = b ∨ into = some c) :
    (((F.dropAny out).dropAny into).write b).Mirrored := by
  refine ((h.dropAny out).dropAny into).write ?_ ?_
  · intro c hc hco hcn
    rw [leaves_dropAny, leaves_dropAny] at hc
    exact (ho c (leaving?_eq_some_iff.mpr ⟨hc.1.1, hco, hcn⟩)).resolve_right hc.1.2
  · intro c hc hcd hcn
    rw [enters_dropAny] at hc
    exact (hi c (entering?_eq_some_iff.mpr ⟨hc.1, hcd, hcn⟩)).resolve_right hc.2

end BondField

end ParticleAutomaton
