import ParticleAutomaton.Proofs.Events
import ParticleAutomaton.Update.Energy
import Mathlib.Data.List.Nodup

namespace ParticleAutomaton

namespace Bond

theorem before_iff {a b : Bond} : a.before b = true ↔
    a.origin.before b.origin = true ∨ a.origin = b.origin ∧
      (a.destination.before b.destination = true ∨
        a.destination = b.destination ∧ Text.before a.name b.name = true) := by
  simp [before]

theorem before_trans {a b c : Bond} (h : a.before b = true) (k : b.before c = true) :
    a.before c = true := by
  rw [before_iff] at h k ⊢
  rcases h with h | ⟨ho, h⟩
  · rcases k with k | ⟨ko, -⟩
    · exact Or.inl (Point.before_trans h k)
    · exact Or.inl (ko ▸ h)
  · rcases k with k | ⟨ko, k⟩
    · exact Or.inl (ho ▸ k)
    · refine Or.inr ⟨ho.trans ko, ?_⟩
      rcases h with h | ⟨hd, h⟩
      · rcases k with k | ⟨kd, -⟩
        · exact Or.inl (Point.before_trans h k)
        · exact Or.inl (kd ▸ h)
      · rcases k with k | ⟨kd, k⟩
        · exact Or.inl (hd ▸ k)
        · exact Or.inr ⟨hd.trans kd, Text.before_trans h k⟩

theorem ne_of_before {a b : Bond} (h : a.before b = true) : a ≠ b := by
  rintro rfl
  simp [before_iff, Point.before_irrefl, Text.before_irrefl] at h

theorem before_of_not {a b : Bond} (h : ¬ a.before b = true) (hne : a ≠ b) : b.before a = true := by
  rw [before_iff, not_or] at h
  rw [before_iff]
  obtain ⟨ho, h⟩ := h
  by_cases heo : a.origin = b.origin
  · refine Or.inr ⟨heo.symm, ?_⟩
    rw [not_and, not_or] at h
    obtain ⟨hd, hn⟩ := h heo
    by_cases hed : a.destination = b.destination
    · have hname : a.name ≠ b.name := fun hen => hne (BondField.bond_ext_iff.mpr ⟨heo, hed, hen⟩)
      have hn : ¬ Text.before a.name b.name = true := fun hb => hn ⟨hed, hb⟩
      exact Or.inr ⟨hed.symm, Text.before_of_not (Bool.eq_false_iff.mpr hn) hname⟩
    · exact Or.inl (Point.before_of_not (Bool.eq_false_iff.mpr hd) hed)
  · exact Or.inl (Point.before_of_not (Bool.eq_false_iff.mpr ho) heo)

theorem mem_insertSorted {a b : Bond} {bs : List Bond} :
    a ∈ b.insertSorted bs ↔ a = b ∨ a ∈ bs := by
  induction bs with
  | nil => simp [insertSorted]
  | cons c cs ih =>
    unfold insertSorted
    split
    next he =>
      subst he
      simp
    next =>
      split
      next => simp
      next =>
        rw [List.mem_cons, List.mem_cons, ih]
        exact or_left_comm

theorem ordered_insertSorted {b : Bond} {bs : List Bond}
    (h : bs.Pairwise fun a c => a.before c = true) :
    (b.insertSorted bs).Pairwise fun a c => a.before c = true := by
  induction bs with
  | nil => simp [insertSorted]
  | cons c cs ih =>
    obtain ⟨hc, hs⟩ := List.pairwise_cons.mp h
    unfold insertSorted
    split
    next => exact h
    next hne =>
      split
      next hb =>
        refine List.pairwise_cons.mpr ⟨fun a ha => ?_, h⟩
        rcases List.mem_cons.mp ha with rfl | ha
        · exact hb
        · exact before_trans hb (hc a ha)
      next hb =>
        refine List.pairwise_cons.mpr ⟨fun a ha => ?_, ih hs⟩
        rcases mem_insertSorted.mp ha with rfl | ha
        · exact before_of_not hb (Ne.symm hne)
        · exact hc a ha

theorem mem_foldl_insertSorted {a : Bond} {bs cs : List Bond} :
    a ∈ bs.foldl (fun cs b => b.insertSorted cs) cs ↔ a ∈ bs ∨ a ∈ cs := by
  induction bs generalizing cs with
  | nil => simp
  | cons b bs ih =>
    rw [List.foldl_cons, ih, mem_insertSorted, List.mem_cons]
    exact ⟨fun h => by rcases h with h | h | h <;> simp [h], fun h => by
      rcases h with (h | h) | h <;> simp [h]⟩

theorem nodup_foldl_insertSorted {bs cs : List Bond}
    (h : cs.Pairwise fun a c => a.before c = true) :
    (bs.foldl (fun cs b => b.insertSorted cs) cs).Nodup := by
  induction bs generalizing cs with
  | nil => exact h.imp ne_of_before
  | cons b bs ih => exact ih (ordered_insertSorted h)

end Bond

namespace CellBonds

/-- The bonds that a cell at a place has to other cells. -/
def leaving (p : Point) (c : CellBonds) : List Bond :=
  c.outgoing.entries.map fun (name, offset) => ⟨p, p + offset, name⟩

/-- The bonds that a cell at a place has from other cells. -/
def entering (p : Point) (c : CellBonds) : List Bond :=
  c.incoming.entries.map fun (name, offset) => ⟨p + offset, p, name⟩

theorem bondsAt_eq (p : Point) (c : CellBonds) : c.bondsAt p = c.leaving p ++ c.entering p := rfl

variable {p : Point} {c : CellBonds}

theorem mem_leaving {b : Bond} : b ∈ c.leaving p ↔
    b.origin = p ∧ c.outgoing.get? b.name = some (b.destination - b.origin) := by
  rw [leaving, List.mem_map]
  constructor
  · rintro ⟨⟨name, offset⟩, hm, rfl⟩
    exact ⟨rfl, by rw [Point.add_sub_self]; exact c.outgoing.mem_entries_iff.mp hm⟩
  · rintro ⟨rfl, h⟩
    refine ⟨_, c.outgoing.mem_entries_iff.mpr h, BondField.bond_ext_iff.mpr ⟨rfl, ?_, rfl⟩⟩
    exact Point.add_eq_iff.mpr rfl

theorem mem_entering {b : Bond} : b ∈ c.entering p ↔
    b.destination = p ∧ c.incoming.get? b.name = some (b.origin - b.destination) := by
  rw [entering, List.mem_map]
  constructor
  · rintro ⟨⟨name, offset⟩, hm, rfl⟩
    exact ⟨rfl, by rw [Point.add_sub_self]; exact c.incoming.mem_entries_iff.mp hm⟩
  · rintro ⟨rfl, h⟩
    refine ⟨_, c.incoming.mem_entries_iff.mpr h, BondField.bond_ext_iff.mpr ⟨?_, rfl, rfl⟩⟩
    exact Point.add_eq_iff.mpr rfl

theorem mem_bondsAt {b : Bond} :
    b ∈ c.bondsAt p ↔
      (b.origin = p ∧ c.outgoing.get? b.name = some (b.destination - b.origin)) ∨
        (b.destination = p ∧ c.incoming.get? b.name = some (b.origin - b.destination)) := by
  rw [bondsAt_eq, List.mem_append, mem_leaving, mem_entering]

/-- A name and an offset make one bond at a place. -/
theorem entry_eq {name name' : String} {offset offset' : Point} (hp : p + offset = p + offset')
    (hn : name = name') : (name, offset) = (name', offset') := by
  rw [hn, Point.add_eq_iff.mp hp, Point.add_sub_self]

theorem nodup_leaving (p : Point) (c : CellBonds) : (c.leaving p).Nodup := by
  refine c.outgoing.nodup_entries.map fun ⟨name, offset⟩ ⟨name', offset'⟩ he => ?_
  obtain ⟨-, hd, hn⟩ := BondField.bond_ext_iff.mp he
  exact entry_eq hd hn

theorem nodup_entering (p : Point) (c : CellBonds) : (c.entering p).Nodup := by
  refine c.incoming.nodup_entries.map fun ⟨name, offset⟩ ⟨name', offset'⟩ he => ?_
  obtain ⟨ho, -, hn⟩ := BondField.bond_ext_iff.mp he
  exact entry_eq ho hn

end CellBonds

namespace UpdateEvent

variable {R : Type}

/-- The places whose bonds are weighed. -/
def near (e : UpdateEvent R) : List Point := e.ends ++ e.plan.edits.map Prod.fst

theorem nearBonds_eq (e : UpdateEvent R) (g : Grid) (after : Bool) :
    e.nearBonds g after = (e.near.flatMap fun p =>
      ((e.bondsAt g after p).map (CellBonds.bondsAt p)).getD []).foldl
        (fun bonds b => b.insertSorted bonds) [] :=
  List.foldl_flatMap.symm

theorem nodup_nearBonds (e : UpdateEvent R) (g : Grid) (after : Bool) :
    (e.nearBonds g after).Nodup := by
  rw [nearBonds_eq]
  exact Bond.nodup_foldl_insertSorted .nil

/-- The bonds that stand at an end of them that is near. -/
theorem mem_nearBonds {e : UpdateEvent R} {g : Grid} {after : Bool} {b : Bond} :
    b ∈ e.nearBonds g after ↔
      (b.origin ∈ e.near ∧ BondField.Leaves (e.bondsAt g after) b) ∨
        (b.destination ∈ e.near ∧ BondField.Enters (e.bondsAt g after) b) := by
  rw [nearBonds_eq, Bond.mem_foldl_insertSorted, List.mem_flatMap]
  constructor
  · rintro (⟨p, hp, hb⟩ | hb)
    · cases hc : e.bondsAt g after p with
      | none => simp [hc] at hb
      | some c =>
        rw [hc, Option.map_some, Option.getD_some] at hb
        rcases CellBonds.mem_bondsAt.mp hb with ⟨rfl, h⟩ | ⟨rfl, h⟩
        · exact Or.inl ⟨hp, c, hc, h⟩
        · exact Or.inr ⟨hp, c, hc, h⟩
    · exact nomatch hb
  · rintro (⟨hp, c, hc, h⟩ | ⟨hp, c, hc, h⟩)
    · refine Or.inl ⟨_, hp, ?_⟩
      rw [hc, Option.map_some, Option.getD_some]
      exact CellBonds.mem_bondsAt.mpr (Or.inl ⟨rfl, h⟩)
    · refine Or.inl ⟨_, hp, ?_⟩
      rw [hc, Option.map_some, Option.getD_some]
      exact CellBonds.mem_bondsAt.mpr (Or.inr ⟨rfl, h⟩)

end UpdateEvent

end ParticleAutomaton
