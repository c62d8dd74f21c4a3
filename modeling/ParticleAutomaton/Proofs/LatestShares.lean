import ParticleAutomaton.Proofs.GaplessSamplers

namespace ParticleAutomaton

section

variable {ι ι' κ κ' : Type} [DecidableEq κ] [DecidableEq κ']

/-- The elements that no later one of the same key replaces, in order. -/
def lastOfEach (key : ι → κ) : List ι → List ι
  | [] => []
  | i :: is => if ∃ j ∈ is, key j = key i then lastOfEach key is else i :: lastOfEach key is

theorem mem_of_mem_lastOfEach {key : ι → κ} {is : List ι} {i : ι} (h : i ∈ lastOfEach key is) :
    i ∈ is := by
  induction is with
  | nil => exact nomatch h
  | cons j is ih =>
    unfold lastOfEach at h
    split at h
    next => exact List.mem_cons_of_mem j (ih h)
    next =>
      rcases List.mem_cons.mp h with rfl | h
      · exact List.mem_cons_self ..
      · exact List.mem_cons_of_mem j (ih h)

/-- A new element takes the place of the one of its key. -/
theorem lastOfEach_append_singleton (key : ι → κ) (is : List ι) (i : ι) :
    lastOfEach key (is ++ [i]) = (lastOfEach key is).filter (key · ≠ key i) ++ [i] := by
  induction is with
  | nil => rfl
  | cons j is ih =>
    rw [List.cons_append, lastOfEach, lastOfEach, ih]
    by_cases hlater : ∃ k ∈ is, key k = key j
    · obtain ⟨k, hk, he⟩ := hlater
      rw [if_pos ⟨k, List.mem_append_left _ hk, he⟩, if_pos ⟨k, hk, he⟩]
    · by_cases hi : key i = key j
      · rw [if_pos ⟨i, by simp, hi⟩, if_neg hlater, List.filter_cons_of_neg (by simp [hi])]
      · have hnone : ¬ ∃ k ∈ is ++ [i], key k = key j := by
          rintro ⟨k, hk, he⟩
          rcases List.mem_append.mp hk with hk | hk
          · exact hlater ⟨k, hk, he⟩
          · exact hi (List.mem_singleton.mp hk ▸ he)
        rw [if_neg hnone, if_neg hlater, List.filter_cons_of_pos (by simpa using Ne.symm hi)]
        rfl

theorem nodup_lastOfEach (key : ι → κ) (is : List ι) : ((lastOfEach key is).map key).Nodup := by
  induction is with
  | nil => exact .nil
  | cons i is ih =>
    unfold lastOfEach
    split
    next => exact ih
    next hnone =>
      refine List.nodup_cons.mpr ⟨fun hmem => ?_, ih⟩
      obtain ⟨j, hj, he⟩ := List.mem_map.mp hmem
      exact hnone ⟨j, mem_of_mem_lastOfEach hj, he⟩

theorem lastOfEach_map (key : ι → κ) (f : ι' → ι) (is : List ι') :
    lastOfEach key (is.map f) = (lastOfEach (fun i => key (f i)) is).map f := by
  induction is with
  | nil => rfl
  | cons i is ih =>
    rw [List.map_cons, lastOfEach, lastOfEach, ih]
    simp only [List.mem_map, exists_exists_and_eq_and]
    split <;> rfl

/-- Keys that tell elements apart alike leave the same of them. -/
theorem lastOfEach_congr {key : ι → κ} {key' : ι → κ'} {is : List ι}
    (h : ∀ i ∈ is, ∀ j ∈ is, key i = key j ↔ key' i = key' j) :
    lastOfEach key is = lastOfEach key' is := by
  induction is with
  | nil => rfl
  | cons i is ih =>
    have hrest := ih fun j hj k hk => h j (List.mem_cons_of_mem i hj) k (List.mem_cons_of_mem i hk)
    have hlater : (∃ j ∈ is, key j = key i) ↔ ∃ j ∈ is, key' j = key' i := by
      refine exists_congr fun j => and_congr_right fun hj => ?_
      exact h j (List.mem_cons_of_mem i hj) i (List.mem_cons_self ..)
    rw [lastOfEach, lastOfEach, hrest]
    simp only [hlater]

/-- Where keys are all different, to take out the one of a key is to take out what stands at its
place. -/
theorem filter_key_eq_eraseIdx {key : ι → κ} {is : List ι} (hn : (is.map key).Nodup) {n : Nat}
    {i : ι} (hi : is[n]? = some i) : is.filter (key · ≠ key i) = is.eraseIdx n := by
  induction is generalizing n with
  | nil => exact nomatch hi
  | cons j is ih =>
    obtain ⟨hj, hn⟩ := List.nodup_cons.mp hn
    cases n with
    | zero =>
      cases hi
      rw [List.filter_cons_of_neg (by simp), List.eraseIdx_cons_zero, List.filter_eq_self]
      intro k hk
      exact decide_eq_true fun he => hj (he ▸ List.mem_map_of_mem hk)
    | succ n =>
      have hmem : key i ∈ is.map key := List.mem_map_of_mem (List.mem_of_getElem? hi)
      have hne : key j ≠ key i := fun he => hj (he ▸ hmem)
      rw [List.filter_cons_of_pos (by simpa using hne), List.eraseIdx_cons_succ, ih hn hi]

end

namespace WeightedSampler

theorem removeSwap_perm {β : Type} {xs : List β} {i : Nat} (hi : i < xs.length) :
    (removeSwap xs i).Perm (xs.eraseIdx i) := by
  rcases List.eq_nil_or_concat xs with rfl | ⟨ys, last, rfl⟩
  · exact absurd hi (Nat.not_lt_zero i)
  · rw [List.concat_eq_append] at hi ⊢
    unfold removeSwap
    rw [List.getLast?_concat]
    simp only [List.dropLast_concat, List.length_append, List.length_singleton]
    split
    next he =>
      have hlen : i = ys.length := by omega
      rw [hlen, List.eraseIdx_append_of_length_le (Nat.le_refl _), Nat.sub_self]
      simp
    next hne =>
      have hlt : i < ys.length := by
        rw [List.length_append, List.length_singleton] at hi
        omega
      rw [List.eraseIdx_append_of_lt_length hlt]
      exact (List.set_perm_cons_eraseIdx hlt last).trans (List.perm_append_singleton ..).symm

section

variable {α κ R : Type} [Scalar R]

theorem toList_rebuild (s : WeightedSampler α R) (items : List (α × R)) :
    (s.rebuild items).toList = items := toList_lineUp 0 items

variable [BEq α] [DecidableEq κ] {key : α → κ}

/-- Adds items one after another. -/
def addAll (s : WeightedSampler α R) (es : List (α × R)) : Except Fault (WeightedSampler α R) :=
  es.foldlM (fun s e => s.add e.1 e.2) s

/-- To add an item is to take out the one of its key, and put it in if it has a weight. -/
theorem perm_add (hkey : ∀ a b : α, (a == b) = decide (key a = key b))
    {s s' : WeightedSampler α R} {item : α} {weight : R} (h : s.add item weight = .ok s')
    (hn : (s.toList.map fun e => key e.1).Nodup) :
    s'.toList.Perm (s.toList.filter (fun e => key e.1 ≠ key item) ++
      if weight ≤ 0 then [] else [(item, weight)]) := by
  unfold add at h
  split at h
  next => exact nomatch h
  next =>
    split at h
    next i hfind =>
      cases h
      obtain ⟨hlt, hitem, -⟩ := List.findIdx?_eq_some_iff_getElem.mp hfind
      have hlen : i < s.toList.length := by
        rw [toList, List.length_map]
        exact hlt
      have hat : s.toList[i]? = some (s.buckets[i].item, s.buckets[i].weight) := by
        rw [toList, List.getElem?_map, List.getElem?_eq_getElem hlt]
        rfl
      have hsame : key s.buckets[i].item = key item := by
        rw [hkey] at hitem
        exact of_decide_eq_true hitem
      have hrest := filter_key_eq_eraseIdx hn hat
      rw [hsame] at hrest
      rw [toList_rebuild, hrest]
      split
      · rw [List.append_nil]
        exact removeSwap_perm hlen
      · exact (List.set_perm_cons_eraseIdx hlen _).trans (List.perm_append_singleton ..).symm
    next hfind =>
      have hnone : s.toList.filter (fun e => key e.1 ≠ key item) = s.toList := by
        rw [List.filter_eq_self]
        intro e he
        obtain ⟨b, hb, rfl⟩ := List.mem_map.mp he
        have hne := List.findIdx?_eq_none_iff.mp hfind b hb
        rw [hkey] at hne
        exact decide_eq_true (of_decide_eq_false hne)
      rw [hnone]
      split at h
      next hw =>
        cases h
        rw [if_pos hw, List.append_nil]
      next hw =>
        cases h
        rw [if_neg hw]
        simp [toList]

/-- Items that are added one after another are there with the weights that they got last, unless
these are zero. -/
theorem perm_adds (hkey : ∀ a b : α, (a == b) = decide (key a = key b)) {es : List (α × R)}
    {s : WeightedSampler α R} (h : addAll .empty es = .ok s) :
    s.toList.Perm ((lastOfEach (fun e => key e.1) es).filter fun e => ¬ e.2 ≤ 0) := by
  induction es using List.reverseRecOn generalizing s with
  | nil =>
    cases h
    exact .nil
  | append_singleton es e ih =>
    unfold addAll at h
    rw [List.foldlM_append] at h
    obtain ⟨s', hs', h⟩ := bind_eq_ok.mp h
    have hadd : s'.add e.1 e.2 = .ok s := by
      simpa using h
    have hperm := ih hs'
    have hnodup : (s'.toList.map fun e => key e.1).Nodup := by
      rw [(hperm.map fun e => key e.1).nodup_iff]
      exact (nodup_lastOfEach (fun e : α × R => key e.1) es).sublist (List.filter_sublist.map _)
    refine (perm_add hkey hadd hnodup).trans ?_
    rw [lastOfEach_append_singleton, List.filter_append, List.filter_filter, List.filter_singleton]
    refine List.Perm.append ?_ ?_
    · refine (hperm.filter _).trans ?_
      rw [List.filter_filter]
      simp only [Bool.and_comm]
      exact .refl _
    · by_cases hw : e.2 ≤ 0
      · simp [hw]
      · simp [hw]

end

theorem total_lineUp {α : Type} (start : ℝ) (items : List (α × ℝ)) :
    (lineUp start items).2 = start + (items.map (·.2)).sum := by
  induction items generalizing start with
  | nil => exact (add_zero start).symm
  | cons e items ih =>
    have hrest := ih (start + e.2)
    rw [List.map_cons, List.sum_cons, ← add_assoc]
    exact hrest

/-- The total of buckets without gaps is the sum of their weights. -/
theorem Gapless.total_eq {α : Type} {s : WeightedSampler α ℝ} (h : s.Gapless) :
    s.total = (s.toList.map (·.2)).sum := by
  have hsum := total_lineUp 0 s.toList
  unfold Gapless at h
  rw [h, zero_add] at hsum
  exact hsum

end WeightedSampler

end ParticleAutomaton
