import ParticleAutomaton.Proofs.Agreement
import ParticleAutomaton.Sampling.WeightedSampler

namespace ParticleAutomaton

/-- A bucket with another item. -/
def Bucket.mapItem {α β R : Type} (f : α → β) (b : Bucket α R) : Bucket β R :=
  ⟨f b.item, b.weight, b.start⟩

namespace WeightedSampler

variable {α β R γ : Type}

/-- A sampler with other items in the same buckets. -/
def mapItems (f : α → β) (s : WeightedSampler α R) : WeightedSampler β R :=
  ⟨s.buckets.map (Bucket.mapItem f), s.total, s.closed⟩

/-- The items of a sampler. -/
def items (s : WeightedSampler α R) : List α := s.buckets.map (·.item)

theorem mapItems_congr {f g : α → β} {s : WeightedSampler α R} (h : ∀ i ∈ s.items, f i = g i) :
    s.mapItems f = s.mapItems g := by
  have hb : s.buckets.map (Bucket.mapItem f) = s.buckets.map (Bucket.mapItem g) := by
    refine List.map_congr_left fun b hb => ?_
    rw [Bucket.mapItem, Bucket.mapItem, h _ (List.mem_map_of_mem hb)]
  rw [mapItems, mapItems, hb]

theorem total_mapItems (f : α → β) (s : WeightedSampler α R) : (s.mapItems f).total = s.total := rfl

theorem toList_mapItems (f : α → β) (s : WeightedSampler α R) :
    (s.mapItems f).toList = s.toList.map fun e => (f e.1, e.2) := by
  simp [mapItems, toList, Bucket.mapItem]

variable [Scalar R]

theorem mapItems_close (f : α → β) (s : WeightedSampler α R) :
    s.close.mapItems f = (s.mapItems f).close := rfl

theorem lineUp_map (f : α → β) (start : R) (items : List (α × R)) :
    lineUp start (items.map fun e => (f e.1, e.2)) =
      ((lineUp start items).1.map (Bucket.mapItem f), (lineUp start items).2) := by
  induction items generalizing start with
  | nil => rfl
  | cons e items ih =>
    obtain ⟨item, weight⟩ := e
    simp only [List.map_cons, lineUp, ih]
    rfl

theorem mapItems_rebuild (f : α → β) (s : WeightedSampler α R) (items : List (α × R)) :
    (s.rebuild items).mapItems f = (s.mapItems f).rebuild (items.map fun e => (f e.1, e.2)) := by
  simp only [rebuild, mapItems, lineUp_map]

theorem removeSwap_map {ι κ : Type} (f : ι → κ) (xs : List ι) (i : Nat) :
    removeSwap (xs.map f) i = (removeSwap xs i).map f := by
  unfold removeSwap
  rw [List.getLast?_map]
  cases xs.getLast? with
  | none => rfl
  | some last =>
    simp only [Option.map_some, List.length_map]
    split
    · rw [List.map_dropLast]
    · rw [List.map_set, List.map_dropLast]

theorem findIdx?_congr {ι : Type} {p q : ι → Bool} {xs : List ι} (h : ∀ x ∈ xs, p x = q x) :
    xs.findIdx? p = xs.findIdx? q := by
  induction xs with
  | nil => rfl
  | cons x xs ih =>
    rw [List.findIdx?_cons, List.findIdx?_cons, h x (List.mem_cons_self ..),
      ih fun y hy => h y (List.mem_cons_of_mem _ hy)]

/-- To add an item commutes with a change of items that tells them apart as before. -/
theorem add_mapItems [BEq α] [BEq β] {f : α → β} {s : WeightedSampler α R} {item : α}
    (h : ∀ i ∈ s.items, (f i == f item) = (i == item)) (weight : R) :
    (s.mapItems f).add (f item) weight = (s.add item weight).map (mapItems f) := by
  have hfind : (s.mapItems f).buckets.findIdx? (·.item == f item) =
      s.buckets.findIdx? (·.item == item) := by
    rw [mapItems, List.findIdx?_map]
    exact findIdx?_congr fun b hb => h _ (List.mem_map_of_mem hb)
  unfold add
  rw [hfind]
  split
  next => rfl
  next =>
    split
    next i _ =>
      simp only [Except.map, mapItems_rebuild, toList_mapItems]
      split
      · rw [removeSwap_map]
      · rw [List.map_set]
    next =>
      split
      next => rfl
      next => simp [Except.map, mapItems, Bucket.mapItem]

theorem spares_of_add [BEq α] {s : WeightedSampler α R} {item : α} {weight : R} {e : Fault}
    (h : s.add item weight = .error e) : e.SparesCounts := by
  unfold add at h
  split at h
  next =>
    cases h
    exact nofun
  next =>
    split at h
    next => exact nomatch h
    next => split at h <;> exact nomatch h

theorem items_lineUp (start : R) (items : List (α × R)) :
    (lineUp start items).1.map (·.item) = items.map Prod.fst := by
  induction items generalizing start with
  | nil => rfl
  | cons e items ih => simp [lineUp, ih]

theorem mem_removeSwap {ι : Type} {xs : List ι} {i : Nat} {x : ι} (h : x ∈ removeSwap xs i) :
    x ∈ xs := by
  unfold removeSwap at h
  split at h
  next => exact nomatch h
  next last hl =>
    split at h
    next => exact List.dropLast_subset _ h
    next =>
      rcases List.mem_or_eq_of_mem_set h with h | rfl
      · exact List.dropLast_subset _ h
      · exact List.mem_of_getLast? hl

theorem items_rebuild (s : WeightedSampler α R) (items : List (α × R)) :
    (s.rebuild items).items = items.map Prod.fst := items_lineUp 0 items

/-- What adding an item can come to: the buckets are lined up anew, or nothing changes, or a bucket
is put behind the last one. -/
theorem add_cases [BEq α] {s s' : WeightedSampler α R} {item : α} {weight : R}
    (h : s.add item weight = .ok s') :
    0 ≤ weight ∧
      ((∃ items, s' = s.rebuild items ∧ ∀ e ∈ items, e ∈ s.toList ∨ e = (item, weight)) ∨
        s' = s ∨
        s' = { s with
          buckets := s.buckets ++ [⟨item, weight, s.total⟩]
          total := s.total + weight }) := by
  unfold add at h
  split at h
  next => exact nomatch h
  next hw =>
    refine ⟨Decidable.not_not.mp hw, ?_⟩
    split at h
    next i _ =>
      cases h
      refine Or.inl ⟨_, rfl, fun e he => ?_⟩
      split at he
      next => exact Or.inl (mem_removeSwap he)
      next => exact List.mem_or_eq_of_mem_set he
    next =>
      split at h
      next =>
        cases h
        exact Or.inr (Or.inl rfl)
      next =>
        cases h
        exact Or.inr (Or.inr rfl)

theorem items_add [BEq α] {s s' : WeightedSampler α R} {item : α} {weight : R}
    (h : s.add item weight = .ok s') {i : α} (hi : i ∈ s'.items) : i = item ∨ i ∈ s.items := by
  obtain ⟨-, ⟨items, rfl, hitems⟩ | rfl | rfl⟩ := add_cases h
  · rw [items_rebuild] at hi
    obtain ⟨e, he, rfl⟩ := List.mem_map.mp hi
    rcases hitems e he with he | rfl
    · obtain ⟨b, hb, rfl⟩ := List.mem_map.mp he
      exact Or.inr (List.mem_map_of_mem hb)
    · exact Or.inl rfl
  · exact Or.inr hi
  · simpa [items, or_comm] using hi

theorem locate_mapItems (f : α → β) (s : WeightedSampler α R) (draw : R) :
    (s.mapItems f).locate draw = (s.locate draw).map f := by
  have hlast : ((s.mapItems f).buckets.takeWhile fun b => decide (b.start ≤ draw)).getLast? =
      ((s.buckets.takeWhile fun b => decide (b.start ≤ draw)).getLast?).map (Bucket.mapItem f) := by
    rw [mapItems, List.takeWhile_map, List.getLast?_map]
    rfl
  unfold locate
  rw [hlast, total_mapItems]
  split
  next => rfl
  next =>
    cases (s.buckets.takeWhile fun b => decide (b.start ≤ draw)).getLast? with
    | none => rfl
    | some b =>
      simp only [Option.map_some, Bucket.mapItem]
      split <;> rfl

theorem mem_of_locate {s : WeightedSampler α R} {draw : R} {item : α}
    (h : s.locate draw = some item) : item ∈ s.items := by
  unfold locate at h
  split at h
  next => exact nomatch h
  next =>
    split at h
    next b hb =>
      split at h
      next =>
        cases h
        exact List.mem_map_of_mem ((List.takeWhile_subset _) (List.mem_of_getLast? hb))
      next => exact nomatch h
    next => exact nomatch h

theorem sample_mapItems [Generator R γ] (f : α → β) (s : WeightedSampler α R) (g : γ) :
    (s.mapItems f).sample g = ((s.sample g).1.map f, (s.sample g).2) := by
  have he : (s.mapItems f).isEmpty = s.isEmpty := by simp [isEmpty, mapItems]
  unfold sample
  rw [he]
  split
  · rfl
  · simp only [locate_mapItems]
    rfl

theorem mem_of_sample [Generator R γ] {s : WeightedSampler α R} {g : γ} {item : α}
    (h : (s.sample g).1 = some item) : item ∈ s.items := by
  unfold sample at h
  split at h
  next => exact nomatch h
  next => exact mem_of_locate h

/-- What is done to a sampler. -/
inductive Call (α R : Type)
  | add (item : α) (weight : R)
  | close

section

variable [BEq α]

def Call.apply (s : WeightedSampler α R) : Call α R → Except Fault (WeightedSampler α R)
  | .add item weight => s.add item weight
  | .close => .ok s.close

def run (s : WeightedSampler α R) (calls : List (Call α R)) :
    Except Fault (WeightedSampler α R) :=
  calls.foldlM Call.apply s

theorem run_append_singleton (s : WeightedSampler α R) (calls : List (Call α R)) (c : Call α R) :
    s.run (calls ++ [c]) = s.run calls >>= (Call.apply · c) := by
  simp [run]

/-- A sampler is what calls make of an empty one. -/
def Made (s : WeightedSampler α R) : Prop := ∃ calls : List (Call α R), run .empty calls = .ok s

theorem made_empty : (empty : WeightedSampler α R).Made := ⟨[], rfl⟩

theorem Made.add {s s' : WeightedSampler α R} (h : s.Made) {item : α} {weight : R}
    (ha : s.add item weight = .ok s') : s'.Made := by
  obtain ⟨calls, hcalls⟩ := h
  refine ⟨calls ++ [.add item weight], ?_⟩
  rw [run_append_singleton, hcalls]
  exact ha

theorem Made.close {s : WeightedSampler α R} (h : s.Made) : s.close.Made := by
  obtain ⟨calls, hcalls⟩ := h
  refine ⟨calls ++ [.close], ?_⟩
  rw [run_append_singleton, hcalls]
  rfl

end

end WeightedSampler

end ParticleAutomaton
