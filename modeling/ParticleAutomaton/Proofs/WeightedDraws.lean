import Mathlib
import ParticleAutomaton.Proofs.LatestShares
import ParticleAutomaton.Proofs.RuleUses
import ParticleAutomaton.Proofs.WeightSpans

namespace ParticleAutomaton

namespace WeightedSampler

/-- Items are told apart by some key. -/
theorem exists_key (α : Type) [BEq α] [EquivBEq α] :
    ∃ (κ : Type) (_ : DecidableEq κ) (key : α → κ), ∀ a b, (a == b) = decide (key a = key b) := by
  classical
  let same : Setoid α := ⟨fun a b => a == b, fun _ => BEq.rfl, BEq.symm, BEq.trans⟩
  refine ⟨Quotient same, inferInstance, Quotient.mk same, fun a b => ?_⟩
  rw [Bool.eq_iff_iff, decide_eq_true_iff]
  exact (Quotient.eq (r := same)).symm

section

variable {α R : Type} [BEq α]

/-- What a call adds of what counts as an item, with its weight. -/
def Call.added? (item : α) : Call α R → Option (α × R)
  | .add other weight => if other == item then some (other, weight) else none
  | .close => none

/-- What was added last of what counts as an item, with its weight. -/
def latest? (item : α) (calls : List (Call α R)) : Option (α × R) :=
  calls.reverse.findSome? (·.added? item)

theorem latest?_append_singleton (item : α) (calls : List (Call α R)) (c : Call α R) :
    latest? item (calls ++ [c]) = (c.added? item).or (latest? item calls) := by
  unfold latest?
  rw [List.reverse_append, List.reverse_singleton, List.singleton_append, List.findSome?_cons]
  cases c.added? item <;> rfl

theorem mem_of_latest? {item : α} {calls : List (Call α R)} {e : α × R}
    (h : latest? item calls = some e) : .add e.1 e.2 ∈ calls := by
  obtain ⟨c, hc, he⟩ := List.exists_of_findSome?_eq_some h
  cases c with
  | add other weight =>
    rw [Call.added?, Option.ite_none_right_eq_some] at he
    obtain ⟨-, he⟩ := he
    cases he
    exact List.mem_reverse.mp hc
  | close => exact nomatch he

end

section

variable {α : Type}

theorem start_lineUp {start : ℝ} {items : List (α × ℝ)} {i : Nat} {b : Bucket α ℝ}
    (h : (lineUp start items).1[i]? = some b) :
    b.start = start + ((items.map (·.2)).take i).sum := by
  induction items generalizing start i with
  | nil => exact nomatch h
  | cons e items ih =>
    cases i with
    | zero =>
      cases h
      exact (add_zero start).symm
    | succ i =>
      have hrest : b.start = start + e.2 + ((items.map (·.2)).take i).sum := ih h
      rw [hrest, List.map_cons, List.take_succ_cons, List.sum_cons, add_assoc]

/-- The weights of a sampler, in the order of its items. -/
def weights (s : WeightedSampler α ℝ) : List ℝ := s.toList.map (·.2)

variable {s : WeightedSampler α ℝ} {b : Bucket α ℝ} {i : Nat}

theorem weights_of_bucket (hb : s.buckets[i]? = some b) : s.weights[i]? = some b.weight := by
  simp [weights, toList, hb]

theorem Gapless.buckets_lineUp (h : s.Gapless) : (lineUp 0 s.toList).1 = s.buckets :=
  congrArg Prod.fst h

theorem Gapless.start_eq (h : s.Gapless) (hb : s.buckets[i]? = some b) :
    b.start = (s.weights.take i).sum := by
  rw [← h.buckets_lineUp] at hb
  rw [start_lineUp hb, zero_add]
  rfl

/-- The span of a bucket is that of its weight. -/
theorem Gapless.mem_span_iff (h : s.Gapless) (hb : s.buckets[i]? = some b) {draw : ℝ} :
    draw ∈ weightSpan s.weights i ↔ b.start ≤ draw ∧ draw < b.start + b.weight := by
  rw [mem_weightSpan_iff (weights_of_bucket hb), h.start_eq hb]

/-- Of a sampler without gaps the item is found in whose bucket the draw falls. -/
theorem Gapless.locate_eq_some_iff (h : s.Gapless) (hw : ∀ w ∈ s.weights, 0 ≤ w) {draw : ℝ}
    (hz : 0 ≤ draw) {item : α} : s.locate draw = some item ↔
      ∃ b ∈ s.buckets, b.item = item ∧ b.start ≤ draw ∧ draw < b.start + b.weight := by
  have hend : (lineUp 0 s.toList).2 = s.total := congrArg Prod.snd h
  have hbucket (b : Bucket α ℝ)
      (hb : (s.buckets.takeWhile fun b => decide (b.start ≤ draw)).getLast? = some b) :
      b ∈ s.buckets ∧ b.start ≤ draw := by
    have hmem := List.mem_of_getLast? hb
    have hlow := List.mem_takeWhile_imp hmem
    exact ⟨List.takeWhile_subset _ hmem, by simpa using hlow⟩
  constructor
  · intro hl
    unfold WeightedSampler.locate at hl
    split at hl
    next => exact nomatch hl
    next =>
      split at hl
      next b hb =>
        split at hl
        next hlt =>
          cases hl
          exact ⟨b, (hbucket b hb).1, rfl, (hbucket b hb).2, hlt⟩
        next => exact nomatch hl
      next => exact nomatch hl
  · rintro ⟨b, hb, rfl, hspan⟩
    obtain ⟨i, hi⟩ := List.mem_iff_getElem?.mp hb
    have hdraw := (h.mem_span_iff hi).mpr hspan
    have hlt : draw < s.total := by
      rw [h.total_eq]
      exact lt_sum_of_mem_weightSpan hw hdraw
    have hfound := exists_bucket hz (hend.symm ▸ hlt)
    rw [h.buckets_lineUp] at hfound
    obtain ⟨c, hc, hclt⟩ := hfound
    obtain ⟨j, hj⟩ := List.mem_iff_getElem?.mp (hbucket c hc).1
    have hsame : i = j :=
      eq_of_mem_weightSpan hw hdraw ((h.mem_span_iff hj).mpr ⟨(hbucket c hc).2, hclt⟩)
    subst hsame
    rw [hi] at hj
    cases hj
    unfold WeightedSampler.locate
    rw [if_neg (not_le.mpr hlt), hc]
    exact if_pos hclt

theorem Gapless.locate_eq_none_iff (h : s.Gapless) {draw : ℝ} (hz : 0 ≤ draw) :
    s.locate draw = none ↔ s.total ≤ draw := by
  constructor
  · intro hnone
    by_contra hlt
    obtain ⟨item, hitem⟩ := h.locate hz (not_le.mp hlt)
    exact nomatch hnone.symm.trans hitem
  · intro hle
    unfold WeightedSampler.locate
    exact if_pos hle

end

section

variable {α : Type} [BEq α]

/-- What a sampler has become after some calls. -/
structure Holds (calls : List (Call α ℝ)) (s : WeightedSampler α ℝ) : Prop where
  gapless : s.Gapless
  distinct : s.toList.Pairwise fun e f => (e.1 == f.1) = false
  mem_iff : ∀ e, e ∈ s.toList ↔ 0 < e.2 ∧ latest? e.1 calls = some e
  closed : ∀ range, s.closed = some range → 1 ≤ range

theorem holds_empty : (empty : WeightedSampler α ℝ).Holds [] where
  gapless := gapless_empty
  distinct := .nil
  mem_iff _ := iff_of_false (List.not_mem_nil) nofun
  closed := nofun

variable {calls : List (Call α ℝ)} {s s' : WeightedSampler α ℝ}

theorem Holds.close (h : s.Holds calls) : s.close.Holds (calls ++ [.close]) where
  gapless := h.gapless
  distinct := h.distinct
  mem_iff e := by
    rw [latest?_append_singleton]
    exact h.mem_iff e
  closed range hrange := by
    have hrange : Scalar.atLeast 1 s.total = range := Option.some.inj hrange
    rw [← hrange]
    unfold Scalar.atLeast
    split
    next hlt => exact le_of_lt hlt
    next => exact le_refl 1

theorem Holds.add [EquivBEq α] (h : s.Holds calls) {item : α} {weight : ℝ}
    (ha : s.add item weight = .ok s') : s'.Holds (calls ++ [.add item weight]) := by
  obtain ⟨κ, _, key, hkey⟩ := exists_key α
  have hsame {a b : α} : (a == b) = false ↔ key a ≠ key b := by
    rw [hkey, decide_eq_false_iff_not]
  have hnodup : (s.toList.map fun e => key e.1).Nodup := by
    rw [List.Nodup, List.pairwise_map]
    exact h.distinct.imp hsame.mp
  have hperm := perm_add hkey ha hnodup
  refine ⟨h.gapless.add ha, ?_, fun e => ?_, fun range => ?_⟩
  · rw [hperm.pairwise_iff fun hne => BEq.symm_false hne, List.pairwise_append]
    refine ⟨h.distinct.filter _, ?_, fun e he f hf => ?_⟩
    · split
      · exact .nil
      · exact List.pairwise_singleton ..
    · have hkey : key e.1 ≠ key item := of_decide_eq_true (List.mem_filter.mp he).2
      split at hf
      · exact nomatch hf
      · cases List.mem_singleton.mp hf
        exact hsame.mpr hkey
  · rw [hperm.mem_iff, List.mem_append, List.mem_filter, h.mem_iff, latest?_append_singleton,
      Call.added?, decide_eq_true_iff]
    have hadded : (e ∈ if weight ≤ 0 then [] else [(item, weight)]) ↔
        0 < weight ∧ e = (item, weight) := by
      split
      next hle => exact iff_of_false List.not_mem_nil fun hpos => absurd hle (not_le.mpr hpos.1)
      next hpos => rw [List.mem_singleton, and_iff_right (not_le.mp hpos)]
    rw [hadded]
    by_cases hitem : (item == e.1) = true
    · -- What was held before of what counts as the item is gone.
      have hgone : ¬ key e.1 ≠ key item := by
        rw [hkey, decide_eq_true_iff] at hitem
        exact not_not.mpr hitem.symm
      rw [if_pos hitem, Option.some_or, Option.some.injEq]
      constructor
      · rintro (⟨-, hne⟩ | ⟨hpos, rfl⟩)
        · exact absurd hne hgone
        · exact ⟨hpos, rfl⟩
      · rintro ⟨hpos, rfl⟩
        exact Or.inr ⟨hpos, rfl⟩
    · have hkept : key e.1 ≠ key item := fun he => hitem (by rw [hkey, he, decide_eq_true rfl])
      rw [if_neg hitem, Option.none_or, and_iff_left hkept]
      refine or_iff_left ?_
      rintro ⟨-, rfl⟩
      exact hitem BEq.rfl
  · rw [closed_add ha]
    exact h.closed range

/-- A sampler takes all calls with weights that are not below zero. -/
theorem holds_run [EquivBEq α] (hw : ∀ item weight, Call.add item weight ∈ calls → 0 ≤ weight) :
    ∃ s, run .empty calls = .ok s ∧ s.Holds calls := by
  induction calls using List.reverseRecOn with
  | nil => exact ⟨_, rfl, holds_empty⟩
  | append_singleton calls c ih =>
    obtain ⟨s, hs, hholds⟩ := ih fun item weight hc => hw item weight (List.mem_append_left _ hc)
    rw [run_append_singleton, hs, ok_bind]
    cases c with
    | add item weight =>
      have hweight : 0 ≤ weight := hw item weight (by simp)
      obtain ⟨s', ha⟩ := s.add_ok item hweight
      exact ⟨s', ha, hholds.add ha⟩
    | close => exact ⟨s.close, rfl, hholds.close⟩

theorem Holds.weights_nonneg (h : s.Holds calls) : ∀ w ∈ s.weights, 0 ≤ w := by
  intro w hw
  obtain ⟨e, he, rfl⟩ := List.mem_map.mp hw
  exact le_of_lt ((h.mem_iff e).mp he).1

theorem Holds.weight_pos (h : s.Holds calls) {b : Bucket α ℝ} (hb : b ∈ s.buckets) :
    0 < b.weight := ((h.mem_iff (b.item, b.weight)).mp (List.mem_map_of_mem hb)).1

/-- An item is in one bucket only. -/
theorem Holds.eq_of_item (h : s.Holds calls) [EquivBEq α] {b c : Bucket α ℝ} (hb : b ∈ s.buckets)
    (hc : c ∈ s.buckets) (he : b.item = c.item) : b = c := by
  have hdistinct := h.distinct
  rw [toList, List.pairwise_map] at hdistinct
  by_contra hne
  have hsymm : Std.Symm fun b c : Bucket α ℝ => (b.item == c.item) = false :=
    ⟨fun _ _ hne => BEq.symm_false hne⟩
  have hdiffer := hdistinct.forall hb hc hne
  rw [he, BEq.rfl] at hdiffer
  cases hdiffer

theorem Holds.total_nonneg (h : s.Holds calls) : 0 ≤ s.total := by
  rw [h.gapless.total_eq]
  exact List.sum_nonneg h.weights_nonneg

theorem Holds.drawRange_nonneg (h : s.Holds calls) : 0 ≤ s.drawRange := by
  unfold drawRange
  cases hc : s.closed with
  | none => exact h.total_nonneg
  | some range => exact le_trans zero_le_one (h.closed range hc)

/-- An item is drawn where the draw falls to its weight. -/
theorem Holds.sample_eq_some_iff [EquivBEq α] (h : s.Holds calls) {b : Bucket α ℝ}
    (hb : b ∈ s.buckets) {draws : ℕ → ℝ} (hz : 0 ≤ draws 0) :
    (s.sample draws).1 = some b.item ↔
      b.start ≤ draws 0 * s.drawRange ∧ draws 0 * s.drawRange < b.start + b.weight := by
  have hdraw : 0 ≤ draws 0 * s.drawRange := mul_nonneg hz h.drawRange_nonneg
  have hne : s.isEmpty = false := by
    rw [isEmpty, List.isEmpty_eq_false_iff]
    exact List.ne_nil_of_mem hb
  unfold sample
  rw [hne]
  show s.locate (draws 0 * s.drawRange) = some b.item ↔ _
  rw [h.gapless.locate_eq_some_iff h.weights_nonneg hdraw]
  constructor
  · rintro ⟨c, hc, he, hspan⟩
    obtain rfl := h.eq_of_item hc hb he
    exact hspan
  · intro hspan
    exact ⟨b, hb, rfl, hspan⟩

theorem Holds.sample_eq_none_iff (h : s.Holds calls) {draws : ℕ → ℝ} (hz : 0 ≤ draws 0) :
    (s.sample draws).1 = none ↔ s.isEmpty = true ∨ s.total ≤ draws 0 * s.drawRange := by
  have hdraw : 0 ≤ draws 0 * s.drawRange := mul_nonneg hz h.drawRange_nonneg
  unfold sample
  split
  next he => exact iff_of_true rfl (Or.inl he)
  next he =>
    show s.locate (draws 0 * s.drawRange) = none ↔ _
    rw [h.gapless.locate_eq_none_iff hdraw, or_iff_right he]

/-- Where the range covers the total, each item is drawn as often as its weight says. -/
theorem Holds.draws_of_item [EquivBEq α] (h : s.Holds calls) (hrange : s.total ≤ s.drawRange)
    {b : Bucket α ℝ} (hb : b ∈ s.buckets) :
    {u : ℝ | u ∈ Set.Ico (0 : ℝ) 1 ∧ (s.sample fun _ : ℕ => u).1 = some b.item} =
      Set.Ico (b.start / s.drawRange) ((b.start + b.weight) / s.drawRange) := by
  obtain ⟨i, hi⟩ := List.mem_iff_getElem?.mp hb
  have hstart : 0 ≤ b.start := by
    rw [h.gapless.start_eq hi]
    exact monotone_sum_take h.weights_nonneg (Nat.zero_le i)
  have hend : b.start + b.weight ≤ s.drawRange := by
    rw [h.gapless.start_eq hi, ← sum_take_succ (weights_of_bucket hi)]
    exact le_trans (sum_take_le h.weights_nonneg _) (h.gapless.total_eq ▸ hrange)
  have hpos : 0 < s.drawRange :=
    lt_of_lt_of_le (add_pos_of_nonneg_of_pos hstart (h.weight_pos hb)) hend
  ext u
  rw [Set.mem_ofPred_eq, Set.mem_Ico, Set.mem_Ico, div_le_iff₀ hpos, lt_div_iff₀ hpos]
  constructor
  · rintro ⟨⟨hz, -⟩, hdrawn⟩
    exact (h.sample_eq_some_iff hb hz).mp hdrawn
  · rintro ⟨hle, hlt⟩
    have hz : 0 ≤ u := nonneg_of_mul_nonneg_left (le_trans hstart hle) hpos
    have hone : u < 1 := by
      have hless : u * s.drawRange < 1 * s.drawRange := by
        rw [one_mul]
        exact lt_of_lt_of_le hlt hend
      exact lt_of_mul_lt_mul_right hless (le_of_lt hpos)
    exact ⟨⟨hz, hone⟩, (h.sample_eq_some_iff hb hz).mpr ⟨hle, hlt⟩⟩

/-- Items that are added and weighed one after another, and with closings between, are held as they
were added last. The draws of an item are those that fall to its weight, with all weights laid in a
row, so they come as often as it says. -/
theorem draws_by_weight [EquivBEq α] (calls : List (Call α ℝ))
    (hw : ∀ item weight, Call.add item weight ∈ calls → 0 ≤ weight) :
    ∃ s, run .empty calls = .ok s ∧
      (s.toList.Pairwise fun e f => (e.1 == f.1) = false) ∧
      (∀ e, e ∈ s.toList ↔ e.2 ≠ 0 ∧ latest? e.1 calls = some e) ∧
      s.total = s.weights.sum ∧
      (∀ i b, s.buckets[i]? = some b → b.start = (s.weights.take i).sum) ∧
      (∀ draws : ℕ → ℝ, draws 0 ∈ Set.Ico (0 : ℝ) 1 →
        let draw := draws 0 * s.drawRange
        (∀ b ∈ s.buckets,
          (s.sample draws).1 = some b.item ↔ b.start ≤ draw ∧ draw < b.start + b.weight) ∧
        ((s.sample draws).1 = none ↔ s.isEmpty = true ∨ s.total ≤ draw)) ∧
      (s.total ≤ s.drawRange → ∀ b ∈ s.buckets,
        MeasureTheory.volume {u : ℝ | u ∈ Set.Ico (0 : ℝ) 1 ∧
            (s.sample fun _ : ℕ => u).1 = some b.item} =
          ENNReal.ofReal (b.weight / s.drawRange)) := by
  obtain ⟨s, hs, h⟩ := holds_run hw
  refine ⟨s, hs, h.distinct, fun e => ?_, h.gapless.total_eq, fun i b => h.gapless.start_eq,
    fun draws hdraws => ⟨fun b hb => h.sample_eq_some_iff hb hdraws.1,
      h.sample_eq_none_iff hdraws.1⟩, fun hrange b hb => ?_⟩
  · rw [h.mem_iff]
    exact and_congr_left fun he => (hw _ _ (mem_of_latest? he)).lt_iff_ne'
  · rw [h.draws_of_item hrange hb, Real.volume_Ico, ← sub_div, add_sub_cancel_left]

end

end WeightedSampler

instance {R : Type} : EquivBEq (NamedOutcome R) where
  rfl := by
    intro o
    rw [NamedOutcome.beq_eq_key]
    exact decide_eq_true rfl
  symm := by
    intro o p h
    rw [NamedOutcome.beq_eq_key, decide_eq_true_iff] at h ⊢
    exact h.symm
  trans := by
    intro o p q h h'
    rw [NamedOutcome.beq_eq_key, decide_eq_true_iff] at h h' ⊢
    exact h.trans h'

namespace WeightedSampler

/-- Of two outcomes that count as one the later is held, and drawn in half of all cases. -/
theorem draws_by_weight_of_three :
    let turn (verb : String) : NamedOutcome ℝ := ⟨"a", "b", verb, none⟩
    let calls : List (Call (NamedOutcome ℝ) ℝ) := [.add (turn "turn") 1,
      .add ⟨"b", "b", "", none⟩ 2, .add (turn "swap") 2, .close]
    (∀ item weight, Call.add item weight ∈ calls → 0 ≤ weight) ∧
      (turn "turn" == turn "swap") = true ∧
      ∃ s, run .empty calls = .ok s ∧ (turn "swap", 2) ∈ s.toList ∧ s.total ≤ s.drawRange ∧
        MeasureTheory.volume {u : ℝ | u ∈ Set.Ico (0 : ℝ) 1 ∧
          (s.sample fun _ : ℕ => u).1 = some (turn "swap")} = ENNReal.ofReal (2 / 4) := by
  intro turn calls
  have hw : ∀ item weight, Call.add item weight ∈ calls → 0 ≤ weight := by
    intro item weight hc
    simp only [calls, List.mem_cons, Call.add.injEq, reduceCtorEq, List.not_mem_nil, or_false] at hc
    rcases hc with ⟨-, rfl⟩ | ⟨-, rfl⟩ | ⟨-, rfl⟩ <;> norm_num
  have hsame : (turn "turn" == turn "swap") = true := rfl
  let stay : NamedOutcome ℝ := ⟨"b", "b", "", none⟩
  have hstay : (turn "turn" == stay) = false := rfl
  have hturn : add .empty (turn "turn") (1 : ℝ) = .ok ⟨[⟨turn "turn", 1, 0⟩], 1, none⟩ := by
    simp [add, empty]
  have hbeside : add ⟨[⟨turn "turn", 1, 0⟩], 1, none⟩ stay (2 : ℝ) =
      .ok ⟨[⟨turn "turn", 1, 0⟩, ⟨stay, 2, 1⟩], 3, none⟩ := by
    norm_num [add, hstay]
  have hswap : add ⟨[⟨turn "turn", 1, 0⟩, ⟨stay, 2, 1⟩], 3, none⟩ (turn "swap") (2 : ℝ) =
      .ok ⟨[⟨turn "swap", 2, 0⟩, ⟨stay, 2, 0 + 2⟩], 0 + 2 + 2, none⟩ := by
    have hfind : [Bucket.mk (turn "turn") (1 : ℝ) 0, ⟨stay, 2, 1⟩].findIdx?
        (·.item == turn "swap") = some 0 := rfl
    unfold add
    rw [if_neg (not_not.mpr zero_le_two), hfind]
    simp only [if_neg (not_le.mpr (zero_lt_two' ℝ))]
    rfl
  let closed : WeightedSampler (NamedOutcome ℝ) ℝ :=
    ⟨[⟨turn "swap", 2, 0⟩, ⟨stay, 2, 0 + 2⟩], 0 + 2 + 2, some 4⟩
  have hrun : run .empty calls = .ok closed := by
    have hclose : close ⟨[⟨turn "swap", 2, 0⟩, ⟨stay, 2, 0 + 2⟩], 0 + 2 + 2, none⟩ = closed := by
      have hatLeast : Scalar.atLeast 1 (0 + 2 + 2 : ℝ) = 4 := by
        unfold Scalar.atLeast
        norm_num
      rw [close, hatLeast]
    show (do
      let s ← add .empty (turn "turn") (1 : ℝ)
      let s ← s.add stay 2
      let s ← s.add (turn "swap") 2
      .ok s.close) = _
    rw [hturn, ok_bind, hbeside, ok_bind, hswap, ok_bind, hclose]
  obtain ⟨s, hs, -, hmem, -, -, -, hvolume⟩ := draws_by_weight calls hw
  have he : s = closed := Except.ok.inj (hs.symm.trans hrun)
  subst he
  have hrange : closed.total ≤ closed.drawRange := by
    show (0 + 2 + 2 : ℝ) ≤ 4
    norm_num
  have hheld : (turn "swap", 2) ∈ closed.toList := (hmem _).mpr ⟨two_ne_zero, rfl⟩
  exact ⟨hw, hsame, closed, hs, hheld, hrange, hvolume hrange _ (List.mem_cons_self ..)⟩

end WeightedSampler

end ParticleAutomaton
