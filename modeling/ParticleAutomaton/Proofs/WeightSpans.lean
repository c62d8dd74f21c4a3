import Mathlib

namespace ParticleAutomaton

/-- The numbers that fall to the weight at a place where all weights are laid in a row. -/
def weightSpan (ws : List ℝ) (i : Nat) : Set ℝ := Set.Ico (ws.take i).sum (ws.take (i + 1)).sum

variable {ws : List ℝ}

theorem sum_take_succ {i : Nat} {w : ℝ} (hi : ws[i]? = some w) :
    (ws.take (i + 1)).sum = (ws.take i).sum + w := by
  rw [List.take_add_one, hi, List.sum_append, Option.toList_some, List.sum_singleton]

theorem mem_weightSpan_iff {i : Nat} {w draw : ℝ} (hi : ws[i]? = some w) :
    draw ∈ weightSpan ws i ↔ (ws.take i).sum ≤ draw ∧ draw < (ws.take i).sum + w := by
  rw [weightSpan, sum_take_succ hi, Set.mem_Ico]

theorem mem_weightSpan_cons {w draw : ℝ} {i : Nat} :
    draw ∈ weightSpan (w :: ws) (i + 1) ↔ draw - w ∈ weightSpan ws i := by
  simp only [weightSpan, Set.mem_Ico, List.take_succ_cons, List.sum_cons]
  rw [le_sub_iff_add_le', sub_lt_iff_lt_add']

theorem monotone_sum_take (hw : ∀ w ∈ ws, 0 ≤ w) : Monotone fun i => (ws.take i).sum := by
  refine monotone_nat_of_le_succ fun i => ?_
  cases hi : ws[i]? with
  | none =>
    have hlength : ws.length ≤ i := List.getElem?_eq_none_iff.mp hi
    rw [List.take_of_length_le hlength, List.take_of_length_le (Nat.le_succ_of_le hlength)]
  | some w =>
    rw [sum_take_succ hi]
    exact le_add_of_nonneg_right (hw w (List.mem_of_getElem? hi))

/-- Each number falls to one weight at most. -/
theorem eq_of_mem_weightSpan (hw : ∀ w ∈ ws, 0 ≤ w) {i j : Nat} {draw : ℝ}
    (hi : draw ∈ weightSpan ws i) (hj : draw ∈ weightSpan ws j) : i = j := by
  have hdisjoint := (monotone_sum_take hw).pairwise_disjoint_on_Ico_succ
  by_contra hne
  exact Set.disjoint_left.mp (hdisjoint hne) hi hj

theorem sum_take_le (hw : ∀ w ∈ ws, 0 ≤ w) (i : Nat) : (ws.take i).sum ≤ ws.sum := by
  have hle : (ws.take i).sum ≤ (ws.take (max ws.length i)).sum :=
    monotone_sum_take hw (le_max_right _ _)
  rw [List.take_of_length_le (le_max_left _ _)] at hle
  exact hle

theorem lt_sum_of_mem_weightSpan (hw : ∀ w ∈ ws, 0 ≤ w) {i : Nat} {draw : ℝ}
    (hi : draw ∈ weightSpan ws i) : draw < ws.sum :=
  lt_of_lt_of_le hi.2 (sum_take_le hw (i + 1))

end ParticleAutomaton
