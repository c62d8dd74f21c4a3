import Mathlib
import ParticleAutomaton.Proofs.ActivityTrees
import ParticleAutomaton.Proofs.Rates
import ParticleAutomaton.Proofs.Steps
import ParticleAutomaton.Proofs.TotalEnergy

namespace ParticleAutomaton

theorem isRate_real {x : ℝ} : Scalar.IsRate x ↔ 0 ≤ x :=
  ⟨fun h => h.elim Eq.ge le_of_lt, fun h => (eq_or_lt_of_le h).imp_left Eq.symm⟩

noncomputable instance : RateScalar ℝ where
  zero_le := isRate_real.mp
  zero_lt_one := zero_lt_one
  isRate_add hx hw := isRate_real.mpr (add_nonneg (isRate_real.mp hx) hw)
  isRate_mean hx t := isRate_real.mpr (div_nonneg (isRate_real.mp hx) (Nat.cast_nonneg t.count))

/-- Draws that are told in advance. -/
instance : Generator ℝ (ℕ → ℝ) := ⟨fun draws => (draws 0, fun n => draws (n + 1))⟩

/-- Draws of zero only. -/
noncomputable def zeros : ℕ → ℝ := fun _ => 0

namespace QuadTree

variable {k : Nat}

/-- No rate is below zero, and every sum is that of its quadrants. -/
def Summed : {k : Nat} → QuadTree ℝ k → Prop
  | 0, .leaf rate => 0 ≤ rate
  | _ + 1, .node sum nw ne sw se =>
    sum = nw.total + ne.total + sw.total + se.total ∧
      nw.Summed ∧ ne.Summed ∧ sw.Summed ∧ se.Summed

theorem Summed.total_nonneg {t : QuadTree ℝ k} (h : t.Summed) : 0 ≤ t.total := by
  induction t with
  | leaf rate => exact h
  | node sum nw ne sw se ihnw ihne ihsw ihse =>
    obtain ⟨hsum, hnw, hne, hsw, hse⟩ := h
    have hnw := ihnw hnw
    have hne := ihne hne
    have hsw := ihsw hsw
    have hse := ihse hse
    show 0 ≤ sum
    linarith

theorem Summed.rate_le {t : QuadTree ℝ k} (h : t.Summed) (x y : Nat) : t.rate x y ≤ t.total := by
  induction t generalizing x y with
  | leaf rate => exact le_refl rate
  | @node k sum nw ne sw se ihnw ihne ihsw ihse =>
    obtain ⟨hsum, hnw, hne, hsw, hse⟩ := h
    have hnw' := hnw.total_nonneg
    have hne' := hne.total_nonneg
    have hsw' := hsw.total_nonneg
    have hse' := hse.total_nonneg
    show rate _ x y ≤ sum
    unfold rate
    simp only
    split
    · split
      · have := ihnw hnw x y
        linarith
      · have := ihsw hsw x (y - Nat.pow 2 k)
        linarith
    · split
      · have := ihne hne (x - Nat.pow 2 k) y
        linarith
      · have := ihse hse (x - Nat.pow 2 k) (y - Nat.pow 2 k)
        linarith

theorem summed_blank (k : Nat) : (blank k : QuadTree ℝ k).Summed := by
  have hzero : ∀ k, (blank k : QuadTree ℝ k).total = 0 := by
    intro k
    cases k <;> rfl
  induction k with
  | zero => exact le_refl (0 : ℝ)
  | succ k ih =>
    refine ⟨?_, ih, ih, ih, ih⟩
    rw [hzero]
    simp

/-- To set a rate raises the sums above it by as much, and all sums stay exact. -/
theorem Summed.put {t : QuadTree ℝ k} (h : t.Summed) {r : ℝ} (hr : 0 ≤ r) {raise : ℝ → ℝ}
    {x y : Nat} (hraise : ∀ s, t.rate x y ≤ s → raise s = s + (r - t.rate x y)) :
    (t.put r raise x y).Summed ∧
      (t.put r raise x y).total = t.total + (r - t.rate x y) := by
  have hle := h.rate_le x y
  induction t generalizing x y with
  | leaf rate => exact ⟨hr, (add_sub_cancel rate r).symm⟩
  | @node k sum nw ne sw se ihnw ihne ihsw ihse =>
    obtain ⟨hsum, hnw, hne, hsw, hse⟩ := h
    have hraised := hraise sum hle
    unfold rate at hraise hraised hle ⊢
    unfold QuadTree.put
    simp only at hraise hraised hle ⊢
    -- One quadrant gains what the sum gains, the other three stay.
    split
    next hx =>
      split
      next hy =>
        simp only [hx, hy, if_true] at hraise hraised
        obtain ⟨hs, ht⟩ := ihnw hnw hraise (hnw.rate_le ..)
        refine ⟨⟨?_, hs, hne, hsw, hse⟩, hraised⟩
        linarith
      next hy =>
        simp only [hx, hy, if_true, if_false] at hraise hraised
        obtain ⟨hs, ht⟩ := ihsw hsw hraise (hsw.rate_le ..)
        refine ⟨⟨?_, hnw, hne, hs, hse⟩, hraised⟩
        linarith
    next hx =>
      split
      next hy =>
        simp only [hx, hy, if_true, if_false] at hraise hraised
        obtain ⟨hs, ht⟩ := ihne hne hraise (hne.rate_le ..)
        refine ⟨⟨?_, hnw, hs, hsw, hse⟩, hraised⟩
        linarith
      next hy =>
        simp only [hx, hy, if_false] at hraise hraised
        obtain ⟨hs, ht⟩ := ihse hse hraise (hse.rate_le ..)
        refine ⟨⟨?_, hnw, hne, hsw, hs⟩, hraised⟩
        linarith

/-- Draws of zero fall on the first place if it is active. -/
theorem Summed.sample_zeros {t : QuadTree ℝ k} (h : t.Summed) (hr : 0 < t.rate 0 0) :
    t.sample zeros = (some (0, 0), zeros) := by
  induction t with
  | leaf rate => rfl
  | @node k sum nw ne sw se ihnw =>
    obtain ⟨-, hnw, hne, hsw, hse⟩ := h
    have hhalf : 0 < Nat.pow 2 k := Nat.two_pow_pos k
    have hrate : rate (.node sum nw ne sw se) 0 0 = nw.rate 0 0 := by
      simp only [rate, hhalf, if_true]
    rw [hrate] at hr
    have hpos : 0 < nw.total := lt_of_lt_of_le hr (hnw.rate_le 0 0)
    have htotal : ¬ Scalar.sum [nw.total, ne.total, sw.total, se.total] ≤ 0 := by
      have hne := hne.total_nonneg
      have hsw := hsw.total_nonneg
      have hse := hse.total_nonneg
      have hsum : Scalar.sum [nw.total, ne.total, sw.total, se.total] =
          (0 : ℝ) + nw.total + ne.total + sw.total + se.total := rfl
      rw [hsum]
      exact not_le.mpr (by linarith)
    have hchoose : choose (0 * Scalar.sum [nw.total, ne.total, sw.total, se.total]) 0 none
        [nw.total, ne.total, sw.total, se.total] = some 0 := by
      rw [zero_mul, choose, if_neg (not_le.mpr hpos)]
      exact if_pos hpos
    have hdraw : (Generator.next zeros : ℝ × (ℕ → ℝ)) = (0, zeros) := rfl
    unfold sample
    simp only [hdraw]
    rw [if_neg htotal, hchoose]
    simp only [ihnw hnw hr]
    rfl

end QuadTree

namespace ActivityTree

theorem atLeast_zero_nonneg (rate : ℝ) : 0 ≤ Scalar.atLeast 0 rate := by
  unfold Scalar.atLeast
  split
  next hpos => exact le_of_lt hpos
  next => exact le_refl (0 : ℝ)

/-- A sum that is not below the rate that is replaced gains as much as the rate, without a cut. -/
theorem raise_exact {rate new sum : ℝ} (hnew : 0 ≤ new) (hsum : rate ≤ sum) :
    (if new - rate ≤ 0 ∧ 0 ≤ new - rate then id
      else fun sum => Scalar.atLeast 0 (sum + (new - rate))) sum = sum + (new - rate) := by
  split
  next hz =>
    have hz : new - rate = 0 := le_antisymm hz.1 hz.2
    rw [hz, add_zero, id]
  next =>
    have hraised : (0 : ℝ) ≤ sum + (new - rate) := by linarith
    exact (isRate_real.mpr hraised).atLeast_zero

theorem summed_update {t : ActivityTree ℝ} (h : t.root.Summed) (p : Point) (rate : ℝ) :
    (t.update p rate).2.root.Summed := by
  have hrate := atLeast_zero_nonneg rate
  unfold update
  split
  next => exact h
  next => exact (h.put hrate fun s hs => raise_exact hrate hs).1

theorem sample_zeros {t : ActivityTree ℝ} (h : t.root.Summed) (hr : 0 < t.rate ⟨0, 0⟩) :
    t.sample zeros = (some ⟨0, 0⟩, zeros) := by
  have hsize : 0 < t.size := Nat.two_pow_pos t.depth
  have hplace : t.place? ⟨0, 0⟩ = some (0, 0) := place?_eq_some_iff.mpr ⟨rfl, hsize, hsize⟩
  have hroot : 0 < t.root.rate 0 0 := by
    unfold rate at hr
    rwa [hplace] at hr
  have htop : ¬ t.topRate ≤ 0 := not_le.mpr (lt_of_lt_of_le hroot (h.rate_le 0 0))
  unfold sample
  rw [if_neg htop, h.sample_zeros hroot]
  rfl

end ActivityTree

namespace Board

variable {γ : Type}

theorem summed_of_refreshRate {b c : Board ℝ γ} {p : Point} (h : b.refreshRate p = .ok c)
    (hb : b.activity.root.Summed) : c.activity.root.Summed := by
  unfold refreshRate at h
  split at h
  next =>
    cases h
    exact hb
  next =>
    obtain ⟨⟨rate, registry⟩, -, h⟩ := bind_eq_ok.mp h
    cases h
    exact ActivityTree.summed_update hb p rate

theorem summed_new {config : BoardConfig} {rules : Rulebook ℝ} {random : γ} {b : Board ℝ γ}
    (h : new config rules random = .ok b) : b.activity.root.Summed := by
  obtain ⟨-, -, activity, hcovering, h⟩ := new_eq_ok.mp h
  have hfold := foldlM_relates (r := fun b c : Board ℝ γ => b.activity.root.Summed →
    c.activity.root.Summed) (fun _ => id) (fun h k hb => k (h hb))
    (fun _ _ _ _ => summed_of_refreshRate) h
  refine hfold ?_
  rw [ActivityTree.covering_eq] at hcovering
  cases hcovering
  exact QuadTree.summed_blank _

end Board

end ParticleAutomaton
