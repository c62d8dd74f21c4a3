import ParticleAutomaton.Particle.Arena
import Mathlib.Data.List.Nodup
import Mathlib.Data.List.Perm.Basic

namespace ParticleAutomaton.Arena

variable {α : Type}

theorem get?_eq_some_iff {a : Arena α} {id : ParticleId} {v : α} :
    a.get? id = some v ↔ a.slots[id.slot]? = some (some (id.serial, v)) := by
  unfold get?
  split
  next serial w h =>
    rw [h]
    split
    next he => simp [he]
    next he => simp [he]
  next h =>
    constructor
    · intro hn
      exact nomatch hn
    · intro hs
      exact absurd hs (h _ _)

/-- Numbers of creation are below the next one, and free places are empty and noted once. -/
structure WellFormed (a : Arena α) : Prop where
  created : ∀ {slot serial : Nat} {v : α}, a.slots[slot]? = some (some (serial, v)) →
    serial < a.created
  empty : ∀ {slot : Nat}, slot ∈ a.free → a.slots[slot]? = some none
  nodup : a.free.Nodup

theorem wellFormed_empty : (empty : Arena α).WellFormed :=
  ⟨fun h => by simp [Arena.empty] at h, fun h => by simp [Arena.empty] at h, .nil⟩

theorem get?_empty (id : ParticleId) : (empty : Arena α).get? id = none := by
  simp [get?, empty]

theorem serial_lt {a : Arena α} (h : a.WellFormed) {id : ParticleId} {v : α}
    (hg : a.get? id = some v) : id.serial < a.created := h.created (get?_eq_some_iff.mp hg)

theorem created_insert (a : Arena α) (v : α) : (a.insert v).2.created = a.created + 1 := by
  unfold insert
  simp only
  split <;> rfl

theorem serial_insert (a : Arena α) (v : α) : (a.insert v).1.serial = a.created := by
  unfold insert
  simp only
  split <;> rfl

/-- A new value fills an empty place. -/
theorem slots_insert {a : Arena α} (h : a.WellFormed) (v : α) :
    (∀ w, a.slots[(a.insert v).1.slot]? ≠ some (some w)) ∧ ∀ slot,
      (a.insert v).2.slots[slot]? =
        if slot = (a.insert v).1.slot then some (some (a.created, v)) else a.slots[slot]? := by
  unfold insert
  simp only
  split
  next place free hf =>
    have he : a.slots[place]? = some none := h.empty (hf ▸ List.mem_cons_self ..)
    have hl : place < a.slots.size := (Array.getElem?_eq_some_iff.mp he).1
    refine ⟨fun w => by simp [he], fun slot => ?_⟩
    simp only [Array.set!_eq_setIfInBounds, Array.getElem?_setIfInBounds, hl]
    grind
  next hf =>
    refine ⟨fun w => by simp, fun slot => ?_⟩
    rw [Array.getElem?_push]

theorem get?_insert {a : Arena α} (h : a.WellFormed) (v : α) (id : ParticleId) :
    (a.insert v).2.get? id = if id = (a.insert v).1 then some v else a.get? id := by
  obtain ⟨hne, hs⟩ := slots_insert h v
  have hserial := serial_insert a v
  apply Option.ext
  intro w
  rw [get?_eq_some_iff, hs]
  by_cases hid : id = (a.insert v).1
  · subst hid
    simp [hserial]
  · rw [if_neg hid]
    split
    next hslot =>
      have hn : id.serial ≠ a.created := by
        intro he
        apply hid
        obtain ⟨slot, serial⟩ := id
        exact ParticleId.mk.injEq .. ▸ ⟨hslot, he.trans hserial.symm⟩
      rw [get?_eq_some_iff, hslot]
      simp only [Option.some.injEq, Prod.mk.injEq, Ne.symm hn, false_and, false_iff]
      exact hne _
    next => rw [get?_eq_some_iff]

theorem WellFormed.insert {a : Arena α} (h : a.WellFormed) (v : α) : (a.insert v).2.WellFormed := by
  obtain ⟨hne, hs⟩ := slots_insert h v
  have hfree : ∀ slot ∈ (a.insert v).2.free, slot ∈ a.free ∧ slot ≠ (a.insert v).1.slot := by
    unfold Arena.insert
    simp only
    split
    next place free hf =>
      have hn := List.nodup_cons.mp (hf ▸ h.nodup)
      intro slot hm
      refine ⟨hf ▸ List.mem_cons_of_mem _ hm, fun he => hn.1 ?_⟩
      rwa [show slot = place from he] at hm
    next => simp
  refine ⟨fun {slot serial w} hg => ?_, fun {slot} hm => ?_, ?_⟩
  · rw [hs] at hg
    rw [created_insert]
    split at hg
    next =>
      cases hg
      omega
    next => exact Nat.lt_succ_of_lt (h.created hg)
  · obtain ⟨hm, hslot⟩ := hfree slot hm
    rw [hs, if_neg hslot]
    exact h.empty hm
  · unfold Arena.insert
    simp only
    split
    next hf => exact (List.nodup_cons.mp (hf ▸ h.nodup)).2
    next => exact .nil

theorem slots_modify (a : Arena α) (id : ParticleId) (f : α → α) (slot : Nat) :
    (a.modify id f).slots[slot]? = (a.slots[slot]?).map (·.map fun (serial, v) =>
      (serial, if slot = id.slot ∧ serial = id.serial then f v else v)) := by
  unfold modify
  simp only [Array.getElem?_modify]
  by_cases hs : id.slot = slot
  · simp only [hs, if_true, true_and]
    cases a.slots[slot]? with
    | none => rfl
    | some entry =>
      cases entry with
      | none => rfl
      | some entry =>
        simp only [Option.map_some]
        split <;> rfl
  · simp only [hs, Ne.symm hs, if_false, false_and]
    cases a.slots[slot]? with
    | none => rfl
    | some entry => cases entry <;> rfl

theorem get?_modify (a : Arena α) (id other : ParticleId) (f : α → α) :
    (a.modify id f).get? other = if other = id then (a.get? other).map f else a.get? other := by
  have hid : other = id ↔ other.slot = id.slot ∧ other.serial = id.serial := by
    cases id
    cases other
    simp
  unfold get?
  rw [slots_modify]
  cases a.slots[other.slot]? with
  | none => simp
  | some entry =>
    cases entry with
    | none => simp
    | some entry =>
      simp only [Option.map_some]
      by_cases hs : entry.1 = other.serial
      · simp only [hs, if_true, hid]
        split <;> rfl
      · simp [hs]

/-- Changes of values alone keep the order of places. -/
theorem WellFormed.mono {a b : Arena α} (h : a.WellFormed) (hc : b.created = a.created)
    (hf : b.free = a.free)
    (hs : ∀ slot : Nat,
      (b.slots[slot]?).map (·.map Prod.fst) = (a.slots[slot]?).map (·.map Prod.fst)) :
    b.WellFormed := by
  refine ⟨fun {slot serial v} hg => ?_, fun {slot} hm => ?_, hf ▸ h.nodup⟩
  · have he := hs slot
    rw [hg] at he
    obtain ⟨entry, hm, hn⟩ := Option.map_eq_some_iff.mp he.symm
    obtain ⟨⟨n, w⟩, rfl, rfl⟩ := Option.map_eq_some_iff.mp hn
    exact hc ▸ h.created hm
  · have he := hs slot
    rw [h.empty (hf ▸ hm)] at he
    obtain ⟨entry, he, hn⟩ := Option.map_eq_some_iff.mp he
    rw [he, Option.map_eq_none_iff.mp hn]

theorem WellFormed.modify {a : Arena α} (h : a.WellFormed) (id : ParticleId) (f : α → α) :
    (a.modify id f).WellFormed := by
  refine h.mono rfl rfl fun slot => ?_
  rw [slots_modify]
  simp [Function.comp_def]

theorem get?_mapAll (a : Arena α) (f : α → α) (id : ParticleId) :
    (a.mapAll f).get? id = (a.get? id).map f := by
  unfold get? mapAll
  simp only [Array.getElem?_map]
  cases a.slots[id.slot]? with
  | none => rfl
  | some entry =>
    cases entry with
    | none => rfl
    | some entry =>
      simp only [Option.map_some]
      split <;> rfl

theorem WellFormed.mapAll {a : Arena α} (h : a.WellFormed) (f : α → α) :
    (a.mapAll f).WellFormed := by
  refine h.mono rfl rfl fun slot => ?_
  simp [Arena.mapAll, Function.comp_def]

theorem mem_toList {a : Arena α} {id : ParticleId} {v : α} :
    (id, v) ∈ a.toList ↔ a.get? id = some v := by
  rw [get?_eq_some_iff, toList, List.mem_filterMap]
  constructor
  · rintro ⟨⟨entry, slot⟩, hm, he⟩
    rw [List.mem_zipIdx_iff_getElem?] at hm
    obtain ⟨⟨serial, w⟩, rfl, hv⟩ := Option.map_eq_some_iff.mp he
    cases hv
    simpa using hm
  · intro hs
    exact ⟨(some (id.serial, v), id.slot),
      List.mem_zipIdx_iff_getElem?.mpr (by simpa using hs), rfl⟩

theorem nodup_slots_toList (a : Arena α) : (a.toList.map fun e => e.1.slot).Nodup := by
  have hsub : (a.toList.map fun e => e.1.slot).Sublist (a.slots.toList.zipIdx.map Prod.snd) := by
    unfold toList
    generalize a.slots.toList.zipIdx = entries
    induction entries with
    | nil => exact .slnil
    | cons e entries ih =>
      obtain ⟨entry, slot⟩ := e
      cases entry with
      | none => exact ih.cons _
      | some entry => exact ih.cons_cons _
  refine hsub.nodup ?_
  rw [List.zipIdx_map_snd]
  exact List.nodup_range'

theorem slots_retain (a : Arena α) (keep : α → Bool) (slot : Nat) :
    (a.retain keep).slots[slot]? = (a.slots[slot]?).map (·.filter fun e => keep e.2) := by
  simp [retain]

theorem get?_retain (a : Arena α) (keep : α → Bool) (id : ParticleId) :
    (a.retain keep).get? id = (a.get? id).filter keep := by
  apply Option.ext
  intro v
  rw [get?_eq_some_iff, slots_retain, Option.filter_eq_some_iff, get?_eq_some_iff]
  constructor
  · intro h
    obtain ⟨entry, he, hf⟩ := Option.map_eq_some_iff.mp h
    obtain ⟨rfl, hk⟩ := Option.filter_eq_some_iff.mp hf
    exact ⟨he, hk⟩
  · rintro ⟨he, hk⟩
    simp [he, hk]

theorem free_retain (a : Arena α) (keep : α → Bool) :
    (a.retain keep).free =
      ((a.toList.filter fun e => !keep e.2).map fun e => e.1.slot).reverse ++ a.free := by
  unfold retain
  generalize a.toList.filter (fun e => !keep e.2) = gone
  simp only
  generalize a.free = free
  induction gone generalizing free with
  | nil => rfl
  | cons e gone ih => simp [ih]

theorem WellFormed.retain {a : Arena α} (h : a.WellFormed) (keep : α → Bool) :
    (a.retain keep).WellFormed := by
  have hgone : ∀ slot ∈ (a.toList.filter fun e => !keep e.2).map fun e => e.1.slot,
      ∃ entry, a.slots[slot]? = some (some entry) ∧ keep entry.2 = false := by
    intro slot hm
    obtain ⟨⟨id, v⟩, he, rfl⟩ := List.mem_map.mp hm
    obtain ⟨he, hk⟩ := List.mem_filter.mp he
    exact ⟨_, get?_eq_some_iff.mp (mem_toList.mp he), by simpa using hk⟩
  refine ⟨fun {slot serial v} hg => ?_, fun {slot} hm => ?_, ?_⟩
  · rw [slots_retain] at hg
    obtain ⟨entry, he, hf⟩ := Option.map_eq_some_iff.mp hg
    rw [(Option.filter_eq_some_iff.mp hf).1] at he
    exact h.created he
  · rw [slots_retain]
    rw [free_retain, List.mem_append, List.mem_reverse] at hm
    rcases hm with hm | hm
    · obtain ⟨entry, he, hk⟩ := hgone slot hm
      simp [he, hk]
    · simp [h.empty hm]
  · rw [free_retain]
    refine List.nodup_append.mpr ⟨?_, h.nodup, fun slot hm free hf he => ?_⟩
    · exact List.nodup_reverse.mpr (a.nodup_slots_toList.sublist (List.filter_sublist.map _))
    · obtain ⟨entry, hs, -⟩ := hgone slot (List.mem_reverse.mp hm)
      have hn := h.empty (he ▸ hf)
      rw [hs] at hn
      exact nomatch hn

end ParticleAutomaton.Arena
