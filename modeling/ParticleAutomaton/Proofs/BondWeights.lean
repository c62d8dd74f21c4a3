import ParticleAutomaton.Proofs.TaperedWindows

namespace ParticleAutomaton

/-- The weight of a value beside a window, zero where it has none. -/
noncomputable def taperWeight (low high : Option ℝ) (tolerance value : ℝ) : ℝ :=
  (taper value low high tolerance).getD 0

section

variable {low high : Option ℝ} {tolerance : ℝ}

theorem taperWeight_eq (low high : Option ℝ) (tolerance value : ℝ) :
    taperWeight low high tolerance value =
      (fade tolerance (excess value low high)).getD 0 := by
  rw [taperWeight, taper_eq_fade]

theorem taper_none_or_mem_unit (value : ℝ) (low high : Option ℝ) (tolerance : ℝ) :
    taper value low high tolerance = none ∨
      ∃ weight ∈ Set.Icc (0 : ℝ) 1, taper value low high tolerance = some weight := by
  rw [taper_eq_fade]
  cases hw : fade tolerance (excess value low high) with
  | none => exact .inl rfl
  | some weight => exact .inr ⟨weight, fade_mem_unit hw, rfl⟩

/-- Between two values the weight does not fall below both of theirs. -/
theorem min_taperWeight_le {v₁ v₂ v₃ : ℝ} (h₁₂ : v₁ ≤ v₂) (h₂₃ : v₂ ≤ v₃) :
    min (taperWeight low high tolerance v₁) (taperWeight low high tolerance v₃) ≤
      taperWeight low high tolerance v₂ := by
  have hanti := antitone_getD_fade tolerance
  calc min (taperWeight low high tolerance v₁) (taperWeight low high tolerance v₃)
      = (fade tolerance (max (excess v₁ low high) (excess v₃ low high))).getD 0 := by
        rw [taperWeight_eq, taperWeight_eq]
        exact hanti.map_max.symm
    _ ≤ (fade tolerance (excess v₂ low high)).getD 0 := hanti (excess_le_max h₁₂ h₂₃)
    _ = taperWeight low high tolerance v₂ := (taperWeight_eq ..).symm

theorem abs_taperWeight_sub_le (ht : 0 < tolerance) (v₁ v₂ : ℝ) :
    |taperWeight low high tolerance v₁ - taperWeight low high tolerance v₂| ≤
      |v₁ - v₂| / tolerance := by
  rw [taperWeight_eq, taperWeight_eq]
  exact (abs_getD_fade_sub_le ht ..).trans
    (div_le_div_of_nonneg_right (abs_excess_sub_le ..) (le_of_lt ht))

theorem continuous_taperWeight (ht : 0 < tolerance) :
    Continuous (taperWeight low high tolerance) := by
  refine (LipschitzWith.of_dist_le_mul (K := ⟨tolerance⁻¹, inv_nonneg.mpr (le_of_lt ht)⟩)
    fun v₁ v₂ => ?_).continuous
  have hle : dist (taperWeight low high tolerance v₁) (taperWeight low high tolerance v₂) ≤
      |v₁ - v₂| / tolerance := abs_taperWeight_sub_le ht v₁ v₂
  rwa [div_eq_inv_mul] at hle

theorem taperWeight_beyond (ht : 0 < tolerance) {value : ℝ}
    (h : (∃ bound ∈ low, value ≤ bound - tolerance) ∨
      ∃ bound ∈ high, bound + tolerance ≤ value) :
    taperWeight low high tolerance value = 0 := by
  have hle : tolerance ≤ excess value low high := by
    obtain ⟨bound, rfl, hb⟩ | ⟨bound, rfl, hb⟩ := h
    · exact le_max_of_le_left (le_sub_comm.mp hb)
    · exact le_max_of_le_right (le_sub_iff_add_le'.mpr hb)
  rw [taperWeight_eq, getD_fade ht]
  have hquotient : 1 ≤ excess value low high / tolerance := (one_le_div ht).mpr hle
  exact max_eq_left ((min_le_right ..).trans (sub_nonpos.mpr hquotient))

end

namespace BondGeometry

/-- A bond has a weight where its length has one and, if angles are looked at, its angle too. -/
theorem factor_eq_some_iff {g : BondGeometry ℝ} {t : Topology} {offset : Point}
    {previous : Option Point} {weight : ℝ} :
    g.factor t offset previous = some weight ↔ offset.isZero = false ∧ ∃ angle l a,
      (g.constrainsAngle = true → previous.bind (t.turnAngle · offset) = some angle) ∧
      taper (t.length offset) g.minLen g.maxLen g.lenTolerance = some l ∧
      taper angle g.minAngle g.maxAngle g.angleTolerance = some a ∧ weight = l * a := by
  unfold factor
  cases hz : offset.isZero with
  | true => simp
  | false =>
    cases hc : g.constrainsAngle with
    | true =>
      simp only [Bool.false_eq_true, if_false, if_true, Option.bind_eq_bind,
        Option.bind_eq_some_iff, Option.some.injEq, true_and, true_implies]
      constructor
      · rintro ⟨l, hl, p, hp, angle, hangle, a, ha, rfl⟩
        exact ⟨angle, l, a, ⟨p, hp, hangle⟩, hl, ha, rfl⟩
      · rintro ⟨angle, l, a, ⟨p, hp, hangle⟩, hl, ha, rfl⟩
        exact ⟨l, hl, p, hp, angle, hangle, a, ha, rfl⟩
    | false =>
      obtain ⟨hmin, hmax⟩ : g.minAngle = none ∧ g.maxAngle = none := by
        simpa [constrainsAngle] using hc
      have hopen : ∀ angle, taper angle g.minAngle g.maxAngle g.angleTolerance = some 1 := by
        intro angle
        rw [hmin, hmax]
        rfl
      simp [hopen]

theorem factor_none_or_mem_unit (g : BondGeometry ℝ) (t : Topology) (offset : Point)
    (previous : Option Point) :
    g.factor t offset previous = none ∨
      ∃ weight ∈ Set.Icc (0 : ℝ) 1, g.factor t offset previous = some weight := by
  cases hw : g.factor t offset previous with
  | none => exact .inl rfl
  | some weight =>
    obtain ⟨-, angle, l, a, -, hl, ha, rfl⟩ := factor_eq_some_iff.mp hw
    rw [taper_eq_fade] at hl ha
    exact .inr ⟨l * a, unitInterval.mul_mem (fade_mem_unit hl) (fade_mem_unit ha), rfl⟩

end BondGeometry

/-- A rule adds its energy by the weight of the bond, and nothing where the bond has none. -/
theorem EnergyRule.sum_eq_weights (rules : List (EnergyRule ℝ)) (t : Topology) (offset : Point)
    (previous : Option Point) :
    sum rules t offset previous =
      (rules.map fun r => (r.geometry.factor t offset previous).getD 0 * r.energy).sum := by
  rw [sum, Scalar.sum_eq_list]
  induction rules with
  | nil => rfl
  | cons r rules ih =>
    rw [List.map_cons, List.sum_cons, ← ih, List.filterMap_cons]
    cases r.geometry.factor t offset previous with
    | none => simp
    | some weight => simp

namespace BondGeometry

/-- A window gives weights between zero and one: one inside, with no dip, and fading evenly to zero
outside. The weight of a bond is that of its length by that of its angle, and what has none adds
nothing. -/
theorem weights_fade :
    (∀ (low high : Option ℝ) (tolerance : ℝ),
      (∀ value, taper value low high tolerance = none ∨
        ∃ weight ∈ Set.Icc (0 : ℝ) 1, taper value low high tolerance = some weight) ∧
      (∀ value, (∀ bound ∈ low, bound ≤ value) → (∀ bound ∈ high, value ≤ bound) →
        taper value low high tolerance = some 1) ∧
      (∀ v₁ v₂ v₃, v₁ ≤ v₂ → v₂ ≤ v₃ →
        min (taperWeight low high tolerance v₁) (taperWeight low high tolerance v₃) ≤
          taperWeight low high tolerance v₂) ∧
      (0 < tolerance →
        (∀ v₁ v₂, |taperWeight low high tolerance v₁ - taperWeight low high tolerance v₂| ≤
          |v₁ - v₂| / tolerance) ∧
        Continuous (taperWeight low high tolerance) ∧
        ∀ value, (∃ bound ∈ low, value ≤ bound - tolerance) ∨
            (∃ bound ∈ high, bound + tolerance ≤ value) →
          taperWeight low high tolerance value = 0)) ∧
    ∀ (g : BondGeometry ℝ) (t : Topology) (offset : Point) (previous : Option Point),
      (g.factor t offset previous = none ∨
        ∃ weight ∈ Set.Icc (0 : ℝ) 1, g.factor t offset previous = some weight) ∧
      (∀ weight, g.factor t offset previous = some weight ↔
        offset.isZero = false ∧ ∃ angle l a,
          (g.constrainsAngle = true → previous.bind (t.turnAngle · offset) = some angle) ∧
          taper (t.length offset) g.minLen g.maxLen g.lenTolerance = some l ∧
          taper angle g.minAngle g.maxAngle g.angleTolerance = some a ∧ weight = l * a) ∧
      ∀ rules : List (EnergyRule ℝ), EnergyRule.sum rules t offset previous =
        (rules.map fun r => (r.geometry.factor t offset previous).getD 0 * r.energy).sum := by
  constructor
  · intro low high tolerance
    refine ⟨fun value => taper_none_or_mem_unit value low high tolerance, ?_,
      fun v₁ v₂ v₃ => min_taperWeight_le, ?_⟩
    · intro value hlow hhigh
      rw [taper_eq_fade]
      exact fade_inside (excess_nonpos_iff.mpr ⟨hlow, hhigh⟩)
    · intro ht
      exact ⟨abs_taperWeight_sub_le ht, continuous_taperWeight ht,
        fun value => taperWeight_beyond ht⟩
  · intro g t offset previous
    exact ⟨g.factor_none_or_mem_unit t offset previous, fun weight => factor_eq_some_iff,
      fun rules => EnergyRule.sum_eq_weights rules t offset previous⟩

/-- Between bounds that have changed places both sides fade, and the middle has the most weight. A
diagonal is too long for a window up to one, but not by as much as it tolerates. -/
theorem weights_fade_of_crossed :
    let weight := taperWeight (some 2) (some 1) 2
    ((0 : ℝ) < 2 ∧ (1 : ℝ) ≤ 3 / 2 ∧ (3 / 2 : ℝ) ≤ 2 ∧ (1 : ℝ) + 2 ≤ 3) ∧
      weight 1 = 1 / 2 ∧ weight (3 / 2) = 3 / 4 ∧ weight 2 = 1 / 2 ∧
      min (weight 1) (weight 2) ≤ weight (3 / 2) ∧
      |weight 1 - weight (3 / 2)| ≤ |(1 : ℝ) - 3 / 2| / 2 ∧ Continuous weight ∧ weight 3 = 0 ∧
      taper (3 / 2) (some 1) (some 2) (0 : ℝ) = some 1 ∧
      (⟨none, some 1, 1, none, none, 0⟩ : BondGeometry ℝ).factor .square8 ⟨1, 1⟩ none =
        some (2 - √2) := by
  intro weight
  have hweight : ∀ value, weight value =
      (fade 2 (max (2 - value) (value - 1))).getD 0 := fun value => taperWeight_eq ..
  obtain ⟨htapers, hfactors⟩ := weights_fade
  obtain ⟨-, -, hmin, hpositive⟩ := htapers (some 2) (some 1) 2
  obtain ⟨hclose, hcontinuous, hbeyond⟩ := hpositive two_pos
  obtain ⟨-, hinside, -⟩ := htapers (some 1) (some 2) 0
  obtain ⟨-, hfactor, -⟩ := hfactors ⟨none, some 1, 1, none, none, 0⟩ .square8 ⟨1, 1⟩ none
  refine ⟨by norm_num, ?_, ?_, ?_, hmin _ _ _ (by norm_num) (by norm_num), hclose _ _, hcontinuous,
    hbeyond 3 (.inr ⟨1, rfl, by norm_num⟩), hinside _ ?_ ?_, ?_⟩
  · norm_num [hweight, fade]
  · norm_num [hweight, fade]
  · norm_num [hweight, fade]
  · norm_num
  · norm_num
  · have hlength : Topology.length .square8 ⟨1, 1⟩ = √2 := by
      show √(((1 : ℤ) : ℝ) * ((1 : ℤ) : ℝ) + ((1 : ℤ) : ℝ) * ((1 : ℤ) : ℝ)) = √2
      norm_num
    have hlong : 0 < √2 - 1 := sub_pos.mpr Real.one_lt_sqrt_two
    have hnear : √2 - 1 ≤ 1 := by
      have := Real.sqrt_two_lt_three_halves
      linarith
    have hexcess : excess √2 none (some 1) = √2 - 1 := max_eq_right (le_of_lt hlong)
    have hweight : 1 - (√2 - 1) / 1 = 2 - √2 := by ring
    refine (hfactor _).mpr ⟨rfl, 0, 2 - √2, 1, by simp [constrainsAngle], ?_, rfl, by simp⟩
    rw [taper_eq_fade, hlength, hexcess, fade_near hlong hnear, hweight]

end BondGeometry

end ParticleAutomaton
