import Mathlib
import ParticleAutomaton.Proofs.LiveDraws
import ParticleAutomaton.Proofs.QuadrantSums
import ParticleAutomaton.Proofs.WeightSpans

namespace ParticleAutomaton

namespace QuadTree

/-- Where weights are at least zero and a draw is below their sum, the weight is chosen that the
draw falls to. -/
theorem choose_span {ws : List ℝ} (hw : ∀ w ∈ ws, 0 ≤ w) {draw : ℝ} (hz : 0 ≤ draw)
    (hd : draw < ws.sum) (place : Nat) (last : Option Nat) :
    ∃ i, choose draw place last ws = some (place + i) ∧ draw ∈ weightSpan ws i := by
  induction ws generalizing draw place last with
  | nil => exact absurd hd (not_lt.mpr hz)
  | cons w ws ih =>
    have hrest : ∀ v ∈ ws, 0 ≤ v := fun v hv => hw v (List.mem_cons_of_mem w hv)
    rw [List.sum_cons] at hd
    unfold choose
    split
    next hle =>
      have hzero : w = 0 := le_antisymm hle (hw w (List.mem_cons_self ..))
      obtain ⟨i, hi, hspan⟩ := ih hrest hz (by linarith) (place + 1) last
      refine ⟨i + 1, by rw [hi]; congr 1; omega, ?_⟩
      rw [mem_weightSpan_cons, hzero, sub_zero]
      exact hspan
    next hpos =>
      split
      next hlt =>
        refine ⟨0, rfl, ?_⟩
        rw [mem_weightSpan_iff (w := w) rfl]
        simpa using ⟨hz, hlt⟩
      next hge =>
        have hz : 0 ≤ draw - w := sub_nonneg.mpr (not_lt.mp hge)
        have hd : draw - w < ws.sum := sub_lt_iff_lt_add'.mpr hd
        obtain ⟨i, hi, hspan⟩ := ih hrest hz hd (place + 1) (some place)
        exact ⟨i + 1, by rw [hi]; congr 1; omega, mem_weightSpan_cons.mpr hspan⟩

theorem choose_eq_some_iff {ws : List ℝ} (hw : ∀ w ∈ ws, 0 ≤ w) {draw : ℝ} (hz : 0 ≤ draw)
    (hd : draw < ws.sum) {i : Nat} : choose draw 0 none ws = some i ↔ draw ∈ weightSpan ws i := by
  obtain ⟨j, hj, hspan⟩ := choose_span hw hz hd 0 none
  rw [hj, Nat.zero_add, Option.some.injEq]
  constructor
  · rintro rfl
    exact hspan
  · exact eq_of_mem_weightSpan hw hspan

variable {k : Nat}

theorem Summed.weights_nonneg {t : QuadTree ℝ (k + 1)} (h : t.Summed) : ∀ w ∈ t.weights, 0 ≤ w := by
  have hquadrant (right lower : Bool) := (h.quadrant right lower).total_nonneg
  simp [weights, hquadrant]

theorem Summed.sum_weights {t : QuadTree ℝ (k + 1)} (h : t.Summed) : t.weights.sum = t.total := by
  rw [h.total_quadrants]
  simp only [weights, List.sum_cons, List.sum_nil, Fintype.sum_bool]
  ring

/-- A place in a quadrant is drawn where the draw falls to the quadrant, and the other draws lead to
the place there. -/
theorem Summed.sample_eq_some_iff {t : QuadTree ℝ (k + 1)} (h : t.Summed) (hpos : 0 < t.total)
    {right lower : Bool} {u v : Nat} (hu : u < 2 ^ k) (hv : v < 2 ^ k) {draws : ℕ → ℝ}
    (hdraw : draws 0 ∈ Set.Ico (0 : ℝ) 1) :
    (t.sample draws).1 = some (half k right + u, half k lower + v) ↔
      draws 0 * t.total ∈ weightSpan t.weights (number right lower) ∧
        ((t.quadrant right lower).sample fun n => draws (n + 1)).1 = some (u, v) := by
  have hsum : Scalar.sum t.weights = t.total := (Scalar.sum_eq_list _).trans h.sum_weights
  have hnext : (Generator.next draws : ℝ × (ℕ → ℝ)) = (draws 0, fun n => draws (n + 1)) := rfl
  have hz : 0 ≤ draws 0 * t.total := mul_nonneg hdraw.1 (le_of_lt hpos)
  have hlt : draws 0 * t.total < t.weights.sum := by
    rw [h.sum_weights]
    exact mul_lt_of_lt_one_left hpos hdraw.2
  have hsample {right lower : Bool}
      (hspan : draws 0 * t.total ∈ weightSpan t.weights (number right lower)) :
      t.sample draws = (((t.quadrant right lower).sample fun n => draws (n + 1)).1.map
          fun z => (z.1 + half k right, z.2 + half k lower),
        ((t.quadrant right lower).sample fun n => draws (n + 1)).2) := by
    have hchosen := (choose_eq_some_iff h.weights_nonneg hz hlt).mpr hspan
    rw [← hsum] at hpos hchosen
    exact sample_chosen (g := draws) (not_le.mpr hpos) hchosen
  constructor
  · intro hs
    obtain ⟨i, hi, hspan⟩ := choose_span h.weights_nonneg hz hlt 0 none
    rw [Nat.zero_add] at hi
    obtain ⟨w, hw, hwpos⟩ := exists_of_choose hi
    obtain ⟨right', lower', rfl⟩ := exists_number (List.getElem?_eq_some_iff.mp hw).1
    rw [weights_number] at hw
    cases hw
    rw [hsample hspan] at hs
    obtain ⟨⟨u', v'⟩, hdrawn, hplace⟩ := Option.map_eq_some_iff.mp hs
    obtain ⟨hu', hv', -⟩ := rate_of_sample hwpos (Prod.ext hdrawn rfl)
    obtain ⟨hx, hy⟩ := Prod.mk.inj hplace
    obtain ⟨rfl, rfl⟩ := half_add_inj hu' hu ((Nat.add_comm ..).trans hx)
    obtain ⟨rfl, rfl⟩ := half_add_inj hv' hv ((Nat.add_comm ..).trans hy)
    exact ⟨hspan, hdrawn⟩
  · rintro ⟨hspan, hs⟩
    rw [hsample hspan, hs]
    simp [Nat.add_comm]

/-- The draws that lead to a place with activity are those of one interval for each level. -/
theorem Summed.exists_spans {t : QuadTree ℝ k} (h : t.Summed) {x y : Nat} (hx : x < 2 ^ k)
    (hy : y < 2 ^ k) (hr : 0 < t.rate x y) :
    ∃ lo hi : ℕ → ℝ, (∀ i < k, 0 ≤ lo i ∧ lo i < hi i ∧ hi i ≤ 1) ∧
      ∏ i ∈ Finset.range k, (hi i - lo i) = t.rate x y / t.total ∧
      ∀ draws : ℕ → ℝ, (∀ i < k, draws i ∈ Set.Ico (0 : ℝ) 1) →
        ((t.sample draws).1 = some (x, y) ↔ ∀ i < k, draws i ∈ Set.Ico (lo i) (hi i)) := by
  induction k generalizing x y with
  | zero =>
    cases t with
    | leaf rate =>
      obtain ⟨rfl, rfl⟩ : x = 0 ∧ y = 0 := by omega
      refine ⟨0, 0, nofun, (div_self (ne_of_gt hr)).symm, fun draws _ => ?_⟩
      exact iff_of_true rfl nofun
  | succ k ih =>
    obtain ⟨right, u, hu, rfl⟩ := exists_half hx
    obtain ⟨lower, v, hv, rfl⟩ := exists_half hy
    have hpos : 0 < t.total := lt_of_lt_of_le hr (h.rate_le ..)
    rw [rate_quadrant hu hv] at hr ⊢
    have hquadrant := h.quadrant right lower
    have hweight : 0 < (t.quadrant right lower).total := lt_of_lt_of_le hr (hquadrant.rate_le ..)
    obtain ⟨lo, hi, hin, hprod, hdraws⟩ := ih hquadrant hu hv hr
    set n := number right lower
    have hnext := sum_take_succ (weights_number t right lower)
    have hstart : 0 ≤ (t.weights.take n).sum := monotone_sum_take h.weights_nonneg (Nat.zero_le n)
    have hend : (t.weights.take (n + 1)).sum ≤ t.total :=
      h.sum_weights ▸ sum_take_le h.weights_nonneg (n + 1)
    refine ⟨fun i => i.casesOn ((t.weights.take n).sum / t.total) lo,
      fun i => i.casesOn ((t.weights.take (n + 1)).sum / t.total) hi, ?_, ?_, ?_⟩
    · rintro (- | i) hlt
      · refine ⟨div_nonneg hstart (le_of_lt hpos), div_lt_div_of_pos_right ?_ hpos,
          (div_le_one hpos).mpr hend⟩
        rw [hnext]
        exact lt_add_of_pos_right _ hweight
      · exact hin i (Nat.lt_of_succ_lt_succ hlt)
    · rw [Finset.prod_range_succ']
      show (∏ i ∈ Finset.range k, (hi i - lo i)) *
        ((t.weights.take (n + 1)).sum / t.total - (t.weights.take n).sum / t.total) = _
      rw [hprod, hnext, ← sub_div, add_sub_cancel_left, div_mul_div_cancel₀ (ne_of_gt hweight)]
    · intro draws hunit
      rw [h.sample_eq_some_iff hpos hu hv (hunit 0 (Nat.succ_pos k)),
        hdraws _ fun i hlt => hunit (i + 1) (Nat.succ_lt_succ hlt), Nat.forall_lt_succ_left]
      refine and_congr_left fun _ => ?_
      show _ ↔ draws 0 ∈ Set.Ico ((t.weights.take n).sum / t.total)
        ((t.weights.take (n + 1)).sum / t.total)
      rw [weightSpan, Set.mem_Ico, Set.mem_Ico, div_le_iff₀ hpos, lt_div_iff₀ hpos]

end QuadTree

namespace ActivityTree

theorem root_rate {t : ActivityTree ℝ} {p : Point} (hr : 0 < t.rate p) :
    ∃ x y : ℕ, p = ⟨x, y⟩ ∧ x < 2 ^ t.depth ∧ y < 2 ^ t.depth ∧ t.rate p = t.root.rate x y := by
  cases hp : t.place? p with
  | none =>
    rw [rate, hp] at hr
    exact absurd hr (lt_irrefl 0)
  | some place =>
    obtain ⟨x, y⟩ := place
    obtain ⟨rfl, hx, hy⟩ := place?_eq_some_iff.mp hp
    exact ⟨x, y, rfl, hx, hy, rate_inside hx hy⟩

theorem sample_eq_some_iff {t : ActivityTree ℝ} (htop : 0 < t.topRate) {draws : ℕ → ℝ} {x y : ℕ} :
    (t.sample draws).1 = some ⟨x, y⟩ ↔ (t.root.sample draws).1 = some (x, y) := by
  unfold sample
  rw [if_neg (not_le.mpr htop)]
  simp only
  cases (t.root.sample draws).1 <;> simp [Prod.ext_iff]

/-- The draws that lead to a point with activity are those of one interval for each level. -/
theorem exists_spans {t : ActivityTree ℝ} (h : t.root.Summed) {p : Point} (hr : 0 < t.rate p) :
    ∃ lo hi : ℕ → ℝ, (∀ i < t.depth, 0 ≤ lo i ∧ lo i < hi i ∧ hi i ≤ 1) ∧
      ∏ i ∈ Finset.range t.depth, (hi i - lo i) = t.rate p / t.topRate ∧
      {draws : ℕ → ℝ | (∀ i < t.depth, draws i ∈ Set.Ico (0 : ℝ) 1) ∧
        (t.sample draws).1 = some p} = (Set.Iio t.depth).pi fun i => Set.Ico (lo i) (hi i) := by
  obtain ⟨x, y, rfl, hx, hy, hrate⟩ := root_rate hr
  rw [hrate] at hr ⊢
  have htop : 0 < t.topRate := lt_of_lt_of_le hr (h.rate_le x y)
  obtain ⟨lo, hi, hin, hprod, hdraws⟩ := h.exists_spans hx hy hr
  refine ⟨lo, hi, hin, hprod, Set.ext fun draws => ?_⟩
  rw [Set.mem_ofPred_eq, sample_eq_some_iff htop, Set.mem_pi]
  constructor
  · rintro ⟨hunit, hdrawn⟩
    exact (hdraws draws hunit).mp hdrawn
  · intro hspans
    have hunit (i : ℕ) (hi : i < t.depth) : draws i ∈ Set.Ico (0 : ℝ) 1 := by
      obtain ⟨hlo, -, hle⟩ := hin i hi
      exact ⟨le_trans hlo (hspans i hi).1, lt_of_lt_of_le (hspans i hi).2 hle⟩
    exact ⟨hunit, (hdraws draws hunit).mpr hspans⟩

/-- After any changes no point is drawn exactly where there is no activity, only points with
activity are drawn, and the draws that lead to one make up a box of half-open intervals with the
share of the activity as its volume. -/
theorem draws_proportional (depth : ℕ) (changes : List (Change ℝ)) :
    ofSize (2 ^ depth) = .ok (blank depth : ActivityTree ℝ) ∧
      let t := (blank depth).run changes
      (∀ draws : ℕ → ℝ, ((t.sample draws).1 = none ↔ ∀ p, t.rate p = 0) ∧
        ∀ p, (t.sample draws).1 = some p → 0 < t.rate p) ∧
      ∀ p, 0 < t.rate p → ∃ lo hi : ℕ → ℝ, (∀ i < depth, 0 ≤ lo i ∧ lo i < hi i ∧ hi i ≤ 1) ∧
        ∏ i ∈ Finset.range depth, (hi i - lo i) = t.rate p / t.topRate ∧
        {draws : ℕ → ℝ | (∀ i < depth, draws i ∈ Set.Ico (0 : ℝ) 1) ∧
          (t.sample draws).1 = some p} = (Set.Iio depth).pi fun i => Set.Ico (lo i) (hi i) := by
  refine ⟨ofSize_pow depth, ?_⟩
  intro t
  have hsummed : t.root.Summed := summed_run (QuadTree.summed_blank depth) changes
  have hdepth : t.depth = depth := depth_run ..
  refine ⟨fun draws => ⟨sample_none_iff hsummed draws, fun p hp => ?_⟩, fun p hr => ?_⟩
  · have hdrawn : t.sample draws = (some p, (t.sample draws).2) := Prod.ext hp rfl
    exact not_le.mp (rate_of_sample hdrawn)
  · have hspans := exists_spans hsummed hr
    rw [hdepth] at hspans
    exact hspans

/-- Of two points with activity the first is drawn in a quarter of all cases. -/
theorem draws_proportional_of_pair :
    let changes : List (Change ℝ) := [.update ⟨0, 0⟩ 1, .update ⟨1, 1⟩ 3]
    let t := (blank 1).run changes
    0 < t.rate ⟨0, 0⟩ ∧ ∃ lo hi : ℕ → ℝ, hi 0 - lo 0 = 1 / 4 ∧
      {draws : ℕ → ℝ | (∀ i < 1, draws i ∈ Set.Ico (0 : ℝ) 1) ∧
        (t.sample draws).1 = some ⟨0, 0⟩} = (Set.Iio 1).pi fun i => Set.Ico (lo i) (hi i) := by
  intro changes t
  obtain ⟨-, -, hspans⟩ := draws_proportional 1 changes
  have hwritten {p : Point} (hp : ((blank 1 : ActivityTree ℝ).place? p).isSome) :
      t.rate p = lastWritten p changes := rate_run hp changes
  have hlast : lastWritten ⟨0, 0⟩ changes = 1 ∧ lastWritten ⟨1, 0⟩ changes = 0 ∧
      lastWritten ⟨0, 1⟩ changes = 0 ∧ lastWritten ⟨1, 1⟩ changes = 3 := by
    simp [lastWritten, changes, Change.written?, Scalar.atLeast]
  obtain ⟨h00, h10, h01, h11⟩ := hlast
  have hrate : t.rate ⟨0, 0⟩ = 1 := (hwritten (by decide)).trans h00
  have htop : t.topRate = 4 := by
    have hdepth : t.depth = 1 := depth_run ..
    rw [topRate_eq (summed_run (QuadTree.summed_blank 1) changes) hdepth]
    simp only [pow_one, Finset.sum_range_succ, Finset.sum_range_zero, zero_add, Nat.cast_zero,
      Nat.cast_one]
    rw [hwritten (by decide), hwritten (by decide), hwritten (by decide), hwritten (by decide),
      h00, h10, h01, h11]
    norm_num
  have hpos : 0 < t.rate ⟨0, 0⟩ := hrate ▸ one_pos
  obtain ⟨lo, hi, -, hprod, hset⟩ := hspans ⟨0, 0⟩ hpos
  refine ⟨hpos, lo, hi, ?_, hset⟩
  rw [hrate, htop, Finset.prod_range_one] at hprod
  exact hprod

end ActivityTree

end ParticleAutomaton
