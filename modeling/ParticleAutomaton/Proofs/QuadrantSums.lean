import Mathlib
import ParticleAutomaton.Proofs.ActivitySums

namespace ParticleAutomaton

namespace QuadTree

section

variable {R : Type} {k : Nat}

/-- The sum that is kept for a quadrant of some level, by its column and its row among the quadrants
of that level. At level zero it is the whole square. -/
def sumAt : {k : Nat} → QuadTree R k → Nat → Nat → Nat → R
  | _, t, 0, _, _ => t.total
  | 0, .leaf rate, _ + 1, _, _ => rate
  | _ + 1, .node _ nw ne sw se, level + 1, x, y =>
    let half := Nat.pow 2 level
    if x < half then
      if y < half then nw.sumAt level x y else sw.sumAt level x (y - half)
    else if y < half then ne.sumAt level (x - half) y else se.sumAt level (x - half) (y - half)

def quadrant (right lower : Bool) : QuadTree R (k + 1) → QuadTree R k
  | .node _ nw ne sw se => if lower then if right then se else sw else if right then ne else nw

/-- Where the second half of a side starts, or the first one. -/
def half (k : Nat) (far : Bool) : Nat := if far then 2 ^ k else 0

theorem exists_half {x : Nat} (hx : x < 2 ^ (k + 1)) :
    ∃ far u, u < 2 ^ k ∧ x = half k far + u := by
  have hp : 2 ^ (k + 1) = 2 ^ k + 2 ^ k := pow_succ_two k
  by_cases h : x < 2 ^ k
  · exact ⟨false, x, h, (Nat.zero_add x).symm⟩
  · have hu : x - 2 ^ k < 2 ^ k := by omega
    have he : x = 2 ^ k + (x - 2 ^ k) := by omega
    exact ⟨true, x - 2 ^ k, hu, he⟩

variable {t : QuadTree R (k + 1)} {x y : Nat}

theorem rate_quadrant (hx : x < 2 ^ k) (hy : y < 2 ^ k) (right lower : Bool) :
    t.rate (half k right + x) (half k lower + y) = (t.quadrant right lower).rate x y := by
  cases t
  cases right <;> cases lower <;> simp [rate, quadrant, half, hx, hy]

theorem sumAt_quadrant {level : Nat} (hx : x < 2 ^ level) (hy : y < 2 ^ level)
    (right lower : Bool) :
    t.sumAt (level + 1) (half level right + x) (half level lower + y) =
      (t.quadrant right lower).sumAt level x y := by
  cases t
  cases right <;> cases lower <;> simp [sumAt, quadrant, half, hx, hy]

/-- The sums that a draw chooses from. -/
def weights (t : QuadTree R (k + 1)) : List R :=
  [(t.quadrant false false).total, (t.quadrant true false).total, (t.quadrant false true).total,
    (t.quadrant true true).total]

/-- The place of a quadrant among those that a draw chooses from. -/
def number (right lower : Bool) : Nat := (if right then 1 else 0) + if lower then 2 else 0

theorem exists_number {i : Nat} (hi : i < 4) : ∃ right lower, i = number right lower := by
  obtain rfl | rfl | rfl | rfl : i = 0 ∨ i = 1 ∨ i = 2 ∨ i = 3 := by omega
  · exact ⟨false, false, rfl⟩
  · exact ⟨true, false, rfl⟩
  · exact ⟨false, true, rfl⟩
  · exact ⟨true, true, rfl⟩

theorem weights_number (t : QuadTree R (k + 1)) (right lower : Bool) :
    t.weights[number right lower]? = some (t.quadrant right lower).total := by
  cases right <;> cases lower <;> rfl

theorem half_add_inj {far far' : Bool} {u v : Nat} (hu : u < 2 ^ k) (hv : v < 2 ^ k)
    (h : half k far + u = half k far' + v) : far = far' ∧ u = v := by
  cases far <;> cases far' <;> simp only [half] at h <;> simp at h ⊢ <;> omega

variable {γ : Type} [Scalar R] [Generator R γ]

theorem sample_chosen {t : QuadTree R (k + 1)} {g : γ} {right lower : Bool}
    (ht : ¬ Scalar.sum t.weights ≤ 0)
    (hc : choose ((Generator.next (R := R) g).1 * Scalar.sum t.weights) 0 none t.weights =
      some (number right lower)) :
    t.sample g =
      (((t.quadrant right lower).sample (Generator.next (R := R) g).2).1.map
          fun z => (z.1 + half k right, z.2 + half k lower),
        ((t.quadrant right lower).sample (Generator.next (R := R) g).2).2) := by
  cases t with
  | node sum nw ne sw se =>
    have ht : ¬ Scalar.sum [nw.total, ne.total, sw.total, se.total] ≤ 0 := ht
    have hc : choose ((Generator.next (R := R) g).1 *
        Scalar.sum [nw.total, ne.total, sw.total, se.total]) 0 none
        [nw.total, ne.total, sw.total, se.total] = some (number right lower) := hc
    rw [sample]
    simp only
    rw [if_neg ht, hc]
    cases right <;> cases lower <;> rfl

end

variable {k : Nat}

theorem sum_range_halves (f : Nat → ℝ) :
    ∑ x ∈ Finset.range (2 ^ (k + 1)), f x =
      ∑ far : Bool, ∑ u ∈ Finset.range (2 ^ k), f (half k far + u) := by
  have hp : 2 ^ (k + 1) = 2 ^ k + 2 ^ k := pow_succ_two k
  rw [hp, Finset.sum_range_add, Fintype.sum_bool, add_comm]
  simp [half]

theorem Summed.quadrant {t : QuadTree ℝ (k + 1)} (h : t.Summed) (right lower : Bool) :
    (t.quadrant right lower).Summed := by
  cases t
  obtain ⟨-, hnw, hne, hsw, hse⟩ := h
  cases right <;> cases lower <;> assumption

theorem Summed.total_quadrants {t : QuadTree ℝ (k + 1)} (h : t.Summed) :
    t.total = ∑ right : Bool, ∑ lower : Bool, (t.quadrant right lower).total := by
  cases t
  obtain ⟨hsum, -⟩ := h
  simp only [Fintype.sum_bool, QuadTree.quadrant, if_true, Bool.false_eq_true, if_false]
  rw [total, hsum]
  ring

/-- The sum of a square is that of the rates of all its places. -/
theorem Summed.total_eq {t : QuadTree ℝ k} (h : t.Summed) :
    t.total = ∑ x ∈ Finset.range (2 ^ k), ∑ y ∈ Finset.range (2 ^ k), t.rate x y := by
  induction k with
  | zero =>
    cases t
    simp [total, rate]
  | succ k ih =>
    have hquadrant (right lower : Bool) : (t.quadrant right lower).total =
        ∑ u ∈ Finset.range (2 ^ k), ∑ v ∈ Finset.range (2 ^ k),
          t.rate (half k right + u) (half k lower + v) := by
      rw [ih (h.quadrant right lower)]
      refine Finset.sum_congr rfl fun u hu => Finset.sum_congr rfl fun v hv => ?_
      exact (rate_quadrant (Finset.mem_range.mp hu) (Finset.mem_range.mp hv) right lower).symm
    rw [h.total_quadrants, sum_range_halves]
    refine Finset.sum_congr rfl fun right _ => ?_
    simp only [hquadrant, sum_range_halves]
    rw [Finset.sum_comm]

/-- The places of a quadrant of a level lie in the square. -/
theorem reach_lt {level x u : Nat} (hlevel : level ≤ k) (hx : x < 2 ^ level)
    (hu : u < 2 ^ (k - level)) : x * 2 ^ (k - level) + u < 2 ^ k := by
  have hside : 2 ^ level * 2 ^ (k - level) = 2 ^ k := by
    rw [← pow_add, Nat.add_sub_cancel' hlevel]
  calc x * 2 ^ (k - level) + u < (x + 1) * 2 ^ (k - level) := by linarith
    _ ≤ 2 ^ level * 2 ^ (k - level) := Nat.mul_le_mul_right _ hx
    _ = 2 ^ k := hside

/-- The sum that is kept for a quadrant is that of the rates of its places. -/
theorem Summed.sumAt_eq {t : QuadTree ℝ k} (h : t.Summed) {level x y : Nat} (hlevel : level ≤ k)
    (hx : x < 2 ^ level) (hy : y < 2 ^ level) :
    t.sumAt level x y = ∑ u ∈ Finset.range (2 ^ (k - level)), ∑ v ∈ Finset.range (2 ^ (k - level)),
      t.rate (x * 2 ^ (k - level) + u) (y * 2 ^ (k - level) + v) := by
  induction level generalizing k x y with
  | zero =>
    obtain rfl : x = 0 := by omega
    obtain rfl : y = 0 := by omega
    rw [sumAt, h.total_eq]
    simp
  | succ level ih =>
    obtain ⟨k, rfl⟩ : ∃ n, k = n + 1 := ⟨k - 1, by omega⟩
    obtain ⟨right, u, hu, rfl⟩ := exists_half hx
    obtain ⟨lower, v, hv, rfl⟩ := exists_half hy
    have hle : level ≤ k := by omega
    rw [sumAt_quadrant hu hv, ih (h.quadrant right lower) hle hu hv, Nat.add_sub_add_right]
    -- A quadrant lies in its half of the square where it lies in its half of the level.
    have hhalf (far : Bool) (n a : Nat) : (half level far + n) * 2 ^ (k - level) + a =
        half k far + (n * 2 ^ (k - level) + a) := by
      have hfar : half level far * 2 ^ (k - level) = half k far := by
        cases far with
        | false => exact Nat.zero_mul _
        | true =>
          show 2 ^ level * 2 ^ (k - level) = 2 ^ k
          rw [← pow_add, Nat.add_sub_cancel' hle]
      rw [Nat.add_mul, hfar, Nat.add_assoc]
    refine Finset.sum_congr rfl fun a ha => Finset.sum_congr rfl fun b hb => ?_
    rw [hhalf, hhalf]
    have hu := reach_lt hle hu (Finset.mem_range.mp ha)
    have hv := reach_lt hle hv (Finset.mem_range.mp hb)
    exact (rate_quadrant hu hv right lower).symm

/-- Only what is made of sums that are not below the rate that is replaced matters. -/
theorem Summed.put_congr {t : QuadTree ℝ k} (h : t.Summed) {r : ℝ} {raise raise' : ℝ → ℝ}
    {x y : Nat} (hraise : ∀ s, t.rate x y ≤ s → raise s = raise' s) :
    t.put r raise x y = t.put r raise' x y := by
  have hle := h.rate_le x y
  induction t generalizing x y with
  | leaf rate => rfl
  | @node k sum nw ne sw se ihnw ihne ihsw ihse =>
    obtain ⟨-, hnw, hne, hsw, hse⟩ := h
    have hraised : raise sum = raise' sum := hraise sum hle
    unfold rate at hraise
    unfold QuadTree.put
    simp only [hraised] at hraise ⊢
    split
    next hx =>
      split
      next hy =>
        simp only [hx, hy, if_true] at hraise
        rw [ihnw hnw hraise (hnw.rate_le ..)]
      next hy =>
        simp only [hx, hy, if_true, if_false] at hraise
        rw [ihsw hsw hraise (hsw.rate_le ..)]
    next hx =>
      split
      next hy =>
        simp only [hx, hy, if_true, if_false] at hraise
        rw [ihne hne hraise (hne.rate_le ..)]
      next hy =>
        simp only [hx, hy, if_false] at hraise
        rw [ihse hse hraise (hse.rate_le ..)]

end QuadTree

namespace ActivityTree

section

variable {R : Type} [Scalar R]

/-- Each point of the square has the rate that was written last. -/
theorem rate_run {depth : Nat} {p : Point} (hp : ((blank depth : ActivityTree R).place? p).isSome)
    (changes : List (Change R)) : ((blank depth).run changes).rate p = lastWritten p changes := by
  induction changes using List.reverseRecOn with
  | nil => exact rate_blank depth p
  | append_singleton changes c ih =>
    rw [run_append_singleton, lastWritten_append_singleton]
    cases c with
    | update q rate =>
      have hplace : (((blank depth).run changes).place? p).isSome := by
        unfold place? size
        rw [depth_run]
        exact hp
      show (((blank depth).run changes).update q rate).2.rate p = _
      rw [rate_update, ih, Change.written?]
      by_cases hq : p = q
      · rw [if_pos ⟨hq, hq ▸ hplace⟩, if_pos hq, Option.getD_some]
      · rw [if_neg fun h => hq h.1, if_neg hq, Option.getD_none]
    | clear => exact rate_blank _ p

theorem ofSize_pow (depth : Nat) :
    ofSize (2 ^ depth) = .ok (blank depth : ActivityTree R) := by
  have hlog : (2 ^ depth).log2 = depth := Nat.log2_two_pow
  unfold ofSize
  rw [hlog]
  exact if_pos rfl

theorem rate_inside {t : ActivityTree R} {x y : Nat} (hx : x < t.size) (hy : y < t.size) :
    t.rate ⟨x, y⟩ = t.root.rate x y := by
  rw [ActivityTree.rate, place?_eq_some_iff.mpr ⟨rfl, hx, hy⟩]
  rfl

theorem update_outside {t : ActivityTree R} {p : Point} (hp : t.place? p = none) (rate : R) :
    t.update p rate = (false, t) := by
  unfold update
  rw [hp]

end

theorem summed_run {t : ActivityTree ℝ} (h : t.root.Summed) (changes : List (Change ℝ)) :
    (t.run changes).root.Summed := by
  induction changes using List.reverseRecOn with
  | nil => exact h
  | append_singleton changes c ih =>
    rw [run_append_singleton]
    cases c with
    | update p rate => exact summed_update ih p rate
    | clear => exact QuadTree.summed_blank _

/-- All sums above a point gain what its rate gains: none is cut at zero. -/
theorem update_inside {t : ActivityTree ℝ} (h : t.root.Summed) {x y : Nat} (hx : x < t.size)
    (hy : y < t.size) (rate : ℝ) :
    t.update ⟨x, y⟩ rate = (true, ⟨t.depth, t.root.put (Scalar.atLeast 0 rate)
      (· + (Scalar.atLeast 0 rate - t.rate ⟨x, y⟩)) x y⟩) := by
  have hplace : t.place? ⟨x, y⟩ = some (x, y) := place?_eq_some_iff.mpr ⟨rfl, hx, hy⟩
  unfold update
  rw [hplace, rate_inside hx hy]
  have hput := h.put_congr (r := Scalar.atLeast 0 rate) (x := x) (y := y)
    fun sum hsum => raise_exact (atLeast_zero_nonneg rate) hsum
  exact congrArg (fun root => (true, ActivityTree.mk t.depth root)) hput

/-- The sum of a quadrant is that of the rates of its points. -/
theorem sumAt_eq {t : ActivityTree ℝ} (h : t.root.Summed) {depth level x y : Nat}
    (hdepth : t.depth = depth) (hlevel : level ≤ depth) (hx : x < 2 ^ level) (hy : y < 2 ^ level) :
    t.root.sumAt level x y =
      ∑ u ∈ Finset.range (2 ^ (depth - level)), ∑ v ∈ Finset.range (2 ^ (depth - level)),
        t.rate ⟨(x * 2 ^ (depth - level) + u : ℕ), (y * 2 ^ (depth - level) + v : ℕ)⟩ := by
  subst hdepth
  rw [h.sumAt_eq hlevel hx hy]
  refine Finset.sum_congr rfl fun u hu => Finset.sum_congr rfl fun v hv => ?_
  have hu := QuadTree.reach_lt hlevel hx (Finset.mem_range.mp hu)
  have hv := QuadTree.reach_lt hlevel hy (Finset.mem_range.mp hv)
  exact (rate_inside hu hv).symm

theorem topRate_eq {t : ActivityTree ℝ} (h : t.root.Summed) {depth : ℕ} (hdepth : t.depth = depth) :
    t.topRate = ∑ x ∈ Finset.range (2 ^ depth), ∑ y ∈ Finset.range (2 ^ depth), t.rate ⟨x, y⟩ := by
  have htop := sumAt_eq h hdepth (Nat.zero_le depth) (x := 0) (y := 0) Nat.one_pos Nat.one_pos
  show t.root.total = _
  rw [QuadTree.sumAt] at htop
  simpa using htop

/-- After any changes each sum of a square is that of the rates in its quadrant, and each rate is
the one that was written last. A change in the square adds to the sums what it adds to the rate,
without a cut at zero, and one outside changes nothing. -/
theorem sums_exact (depth : ℕ) (changes : List (Change ℝ)) :
    ofSize (2 ^ depth) = .ok (blank depth : ActivityTree ℝ) ∧
      let t := (blank depth).run changes
      (∀ level ≤ depth, ∀ x < 2 ^ level, ∀ y < 2 ^ level,
        let side := 2 ^ (depth - level)
        t.root.sumAt level x y = ∑ u ∈ Finset.range side, ∑ v ∈ Finset.range side,
          t.rate ⟨(x * side + u : ℕ), (y * side + v : ℕ)⟩) ∧
      t.topRate = ∑ x ∈ Finset.range (2 ^ depth), ∑ y ∈ Finset.range (2 ^ depth), t.rate ⟨x, y⟩ ∧
      (∀ x y : ℕ, x < 2 ^ depth → y < 2 ^ depth → t.rate ⟨x, y⟩ = lastWritten ⟨x, y⟩ changes ∧
        ∀ rate, let new := Scalar.atLeast 0 rate
          t.update ⟨x, y⟩ rate =
            (true, ⟨t.depth, t.root.put new (· + (new - t.rate ⟨x, y⟩)) x y⟩)) ∧
      ∀ p : Point, ¬ (0 ≤ p.x ∧ p.x < 2 ^ depth ∧ 0 ≤ p.y ∧ p.y < 2 ^ depth) →
        ∀ rate, t.update p rate = (false, t) := by
  refine ⟨ofSize_pow depth, ?_⟩
  intro t
  have hsummed : t.root.Summed := summed_run (QuadTree.summed_blank depth) changes
  have hdepth : t.depth = depth := depth_run ..
  have hsize : t.size = 2 ^ depth := congrArg (2 ^ ·) hdepth
  refine ⟨fun level hlevel x hx y hy => sumAt_eq hsummed hdepth hlevel hx hy,
    topRate_eq hsummed hdepth, fun x y hx hy => ?_, fun p hp => ?_⟩
  · have hplace : ((blank depth : ActivityTree ℝ).place? ⟨x, y⟩).isSome := by
      rw [place?_eq_some_iff.mpr ⟨rfl, hx, hy⟩]
      rfl
    exact ⟨rate_run hplace changes, update_inside hsummed (hsize ▸ hx) (hsize ▸ hy)⟩
  · refine update_outside ?_
    unfold place?
    rw [hsize]
    push_cast
    exact if_neg fun h => hp ⟨h.1, h.2.2.1, h.2.1, h.2.2.2⟩

/-- A square of four points, cleared once; a rate below zero is stored as zero. -/
theorem sums_exact_of_five :
    let changes : List (Change ℝ) := [.update ⟨0, 0⟩ 5, .clear, .update ⟨0, 0⟩ 2, .update ⟨1, 1⟩ 1,
      .update ⟨1, 0⟩ (-4)]
    let t := (blank 1).run changes
    t.rate ⟨0, 0⟩ = 2 ∧ t.rate ⟨1, 0⟩ = 0 ∧ t.root.sumAt 1 1 1 = 1 ∧ t.topRate = 3 ∧
      t.update ⟨2, 0⟩ 7 = (false, t) := by
  intro changes t
  obtain ⟨-, hsum, htop, hinside, houtside⟩ := sums_exact 1 changes
  have hlast : lastWritten ⟨0, 0⟩ changes = 2 ∧ lastWritten ⟨1, 0⟩ changes = 0 ∧
      lastWritten ⟨0, 1⟩ changes = 0 ∧ lastWritten ⟨1, 1⟩ changes = 1 := by
    simp [lastWritten, changes, Change.written?, Scalar.atLeast]
  obtain ⟨h00, h10, h01, h11⟩ := hlast
  have r00 : t.rate ⟨0, 0⟩ = 2 := (hinside 0 0 (by decide) (by decide)).1.trans h00
  have r10 : t.rate ⟨1, 0⟩ = 0 := (hinside 1 0 (by decide) (by decide)).1.trans h10
  have r01 : t.rate ⟨0, 1⟩ = 0 := (hinside 0 1 (by decide) (by decide)).1.trans h01
  have r11 : t.rate ⟨1, 1⟩ = 1 := (hinside 1 1 (by decide) (by decide)).1.trans h11
  have hsum := hsum 1 (le_refl 1) 1 (by decide) 1 (by decide)
  refine ⟨r00, r10, ?_, ?_, houtside ⟨2, 0⟩ (by decide) 7⟩
  · rw [hsum]
    simpa using r11
  · rw [htop]
    simp only [pow_one, Finset.sum_range_succ, Finset.sum_range_zero, zero_add, Nat.cast_zero,
      Nat.cast_one]
    show t.rate ⟨0, 0⟩ + t.rate ⟨0, 1⟩ + (t.rate ⟨1, 0⟩ + t.rate ⟨1, 1⟩) = 3
    rw [r00, r01, r10, r11]
    norm_num

end ActivityTree

end ParticleAutomaton
