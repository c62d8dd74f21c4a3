import ParticleAutomaton.Proofs.TotalEnergy

namespace ParticleAutomaton

/-- The weight of what lies this far outside a window. -/
noncomputable def fade (tolerance distance : ℝ) : Option ℝ :=
  if distance ≤ 0 then some 1
  else if distance ≤ tolerance then some (1 - distance / tolerance)
  else none

/-- How far a value lies outside a window; not above zero if it lies inside. -/
noncomputable def excess (value : ℝ) (low high : Option ℝ) : ℝ :=
  max (low.elim 0 (· - value)) (high.elim 0 (value - ·))

variable {tolerance a b : ℝ}

theorem fade_inside (h : a ≤ 0) : fade tolerance a = some 1 := if_pos h

theorem fade_near (h : 0 < a) (hn : a ≤ tolerance) :
    fade tolerance a = some (1 - a / tolerance) := by
  rw [fade, if_neg (not_le.mpr h), if_pos hn]

theorem fade_far (h : 0 < a) (hf : tolerance < a) : fade tolerance a = none := by
  rw [fade, if_neg (not_le.mpr h), if_neg (not_le.mpr hf)]

theorem fade_eq_some_iff {weight : ℝ} : fade tolerance a = some weight ↔
    a ≤ 0 ∧ weight = 1 ∨ 0 < a ∧ a ≤ tolerance ∧ weight = 1 - a / tolerance := by
  rcases le_or_gt a 0 with h | h
  · rw [fade_inside h]
    simp [h, not_lt.mpr h, eq_comm]
  · rcases le_or_gt a tolerance with hn | hf
    · rw [fade_near h hn]
      simp [h, hn, not_le.mpr h, eq_comm]
    · rw [fade_far h hf]
      simp [not_le.mpr h, not_le.mpr hf]

theorem fade_mem_unit {weight : ℝ} (h : fade tolerance a = some weight) :
    weight ∈ Set.Icc (0 : ℝ) 1 := by
  obtain ⟨-, rfl⟩ | ⟨hpos, hn, rfl⟩ := fade_eq_some_iff.mp h
  · exact ⟨zero_le_one, le_rfl⟩
  · have ht : 0 < tolerance := lt_of_lt_of_le hpos hn
    have hle : a / tolerance ≤ 1 := (div_le_one ht).mpr hn
    have hge : 0 ≤ a / tolerance := div_nonneg (le_of_lt hpos) (le_of_lt ht)
    exact ⟨sub_nonneg.mpr hle, sub_le_self 1 hge⟩

/-- Nearer to the window there is a weight too, and it is no smaller. -/
theorem exists_fade_of_le {weight : ℝ} (h : a ≤ b) (hb : fade tolerance b = some weight) :
    ∃ nearer, fade tolerance a = some nearer ∧ weight ≤ nearer := by
  rcases le_or_gt a 0 with ha | ha
  · exact ⟨1, fade_inside ha, (fade_mem_unit hb).2⟩
  · obtain ⟨hin, -⟩ | ⟨-, hn, rfl⟩ := fade_eq_some_iff.mp hb
    · exact absurd (lt_of_lt_of_le ha h) (not_lt.mpr hin)
    · have ht : 0 < tolerance := lt_of_lt_of_le ha (h.trans hn)
      exact ⟨_, fade_near ha (h.trans hn), by gcongr⟩

/-- What has no weight counts for nothing. -/
theorem getD_fade (ht : 0 < tolerance) (a : ℝ) :
    (fade tolerance a).getD 0 = max 0 (min 1 (1 - a / tolerance)) := by
  rcases le_or_gt a 0 with h | h
  · have hquotient : a / tolerance ≤ 0 := div_nonpos_of_nonpos_of_nonneg h (le_of_lt ht)
    have hone : 1 ≤ 1 - a / tolerance := by linarith
    rw [fade_inside h, Option.getD_some, min_eq_left hone, max_eq_right zero_le_one]
  have hquotient : 0 < a / tolerance := div_pos h ht
  have hone : 1 - a / tolerance ≤ 1 := by linarith
  rw [min_eq_right hone]
  rcases le_or_gt a tolerance with hn | hf
  · rw [fade_near h hn, Option.getD_some, max_eq_right (sub_nonneg.mpr ((div_le_one ht).mpr hn))]
  · have hbeyond : 1 < a / tolerance := (one_lt_div ht).mpr hf
    rw [fade_far h hf, Option.getD_none, max_eq_left (by linarith)]

theorem antitone_getD_fade (tolerance : ℝ) : Antitone fun a => (fade tolerance a).getD 0 := by
  intro a b h
  show (fade tolerance b).getD 0 ≤ (fade tolerance a).getD 0
  cases hb : fade tolerance b with
  | some weight =>
    obtain ⟨nearer, ha, hle⟩ := exists_fade_of_le h hb
    rwa [ha]
  | none =>
    cases ha : fade tolerance a with
    | some weight => exact (fade_mem_unit ha).1
    | none => exact le_rfl

theorem abs_getD_fade_sub_le (ht : 0 < tolerance) (a b : ℝ) :
    |(fade tolerance a).getD 0 - (fade tolerance b).getD 0| ≤ |a - b| / tolerance := by
  rw [getD_fade ht, getD_fade ht, max_comm 0, max_comm 0, min_comm 1, min_comm 1]
  calc _ ≤ |min (1 - a / tolerance) 1 - min (1 - b / tolerance) 1| :=
        abs_max_sub_max_le_abs ..
    _ ≤ max |1 - a / tolerance - (1 - b / tolerance)| |1 - 1| := abs_min_sub_min_le_max ..
    _ = |(b - a) / tolerance| := by
        rw [sub_self, abs_zero, max_eq_left (abs_nonneg _), sub_sub_sub_cancel_left, ← sub_div]
    _ = |a - b| / tolerance := by rw [abs_div, abs_of_pos ht, abs_sub_comm]

/-- Of two distances the greater one counts, which has the smaller weight. -/
theorem fade_max (tolerance a b : ℝ) : fade tolerance (max a b) =
    (fade tolerance a).bind fun weight => (fade tolerance b).map (min weight) := by
  rcases le_total a b with h | h
  · rw [max_eq_right h]
    cases hb : fade tolerance b with
    | none => simp
    | some weight =>
      obtain ⟨nearer, ha, hle⟩ := exists_fade_of_le h hb
      rw [ha, Option.bind_some, Option.map_some, min_eq_right hle]
  · rw [max_eq_left h]
    cases ha : fade tolerance a with
    | none => rfl
    | some weight =>
      obtain ⟨nearer, hb, hle⟩ := exists_fade_of_le h ha
      rw [hb, Option.bind_some, Option.map_some, min_eq_left hle]

/-- One side of a window, however its bound is compared. -/
theorem side_eq_fade {out far : Prop} [Decidable out] [Decidable far] {ramp weight : ℝ}
    (hout : 0 < a ↔ out) (hfar : tolerance < a ↔ far) (hramp : tolerance - a = ramp)
    (hw : weight ≤ 1) :
    (if out then
      if tolerance ≤ 0 ∨ far then none else some (Scalar.atMost weight (ramp / tolerance))
    else some weight) = (fade tolerance a).map (min weight) := by
  rcases le_or_gt a 0 with h | h
  · rw [if_neg (hout.not.mp (not_lt.mpr h)), fade_inside h, Option.map_some, min_eq_left hw]
  rw [if_pos (hout.mp h)]
  rcases le_or_gt a tolerance with hn | hbeyond
  · have ht : 0 < tolerance := lt_of_lt_of_le h hn
    have hcut : ¬ (tolerance ≤ 0 ∨ far) := not_or.mpr ⟨not_le.mpr ht, hfar.not.mp (not_lt.mpr hn)⟩
    have hramp : ramp / tolerance = 1 - a / tolerance := by
      rw [← hramp, sub_div, div_self (ne_of_gt ht)]
    have hmin : Scalar.atMost weight (1 - a / tolerance) = min weight (1 - a / tolerance) := by
      rw [min_comm, min_def_lt]
      rfl
    rw [if_neg hcut, fade_near h hn, Option.map_some, hramp, hmin]
  · rw [if_pos (.inr (hfar.mp hbeyond)), fade_far h hbeyond, Option.map_none]

/-- A window without an upper bound. -/
theorem taper_low (value : ℝ) (low : Option ℝ) (tolerance : ℝ) :
    taper value low none tolerance = fade tolerance (low.elim 0 (· - value)) := by
  cases low with
  | none => exact (fade_inside le_rfl).symm
  | some bound =>
    have hwhole : (fade tolerance (bound - value)).map (min 1) = fade tolerance (bound - value) := by
      cases hd : fade tolerance (bound - value) with
      | none => rfl
      | some weight => rw [Option.map_some, min_eq_right (fade_mem_unit hd).2]
    have hramp : tolerance - (bound - value) = value - (bound - tolerance) := by ring
    refine Eq.trans ?_ ((side_eq_fade sub_pos lt_sub_comm hramp le_rfl).trans hwhole)
    simp [taper]

/-- An upper bound takes the smaller one of two weights. -/
theorem taper_high (value : ℝ) (low : Option ℝ) (high tolerance : ℝ) :
    taper value low (some high) tolerance =
      (taper value low none tolerance).bind fun weight =>
        (fade tolerance (value - high)).map (min weight) := by
  have hramp : tolerance - (value - high) = high + tolerance - value := by ring
  have hstep : taper value low (some high) tolerance = (taper value low none tolerance).bind
      fun weight => if high < value then
        if tolerance ≤ 0 ∨ high + tolerance < value then none
        else some (Scalar.atMost weight ((high + tolerance - value) / tolerance))
      else some weight := by
    -- Each end of the check of the lower bound goes on to the upper bound by itself.
    cases low with
    | none => rfl
    | some bound =>
      by_cases hout : value < bound
      · by_cases hfar : tolerance ≤ 0 ∨ value < bound - tolerance <;> simp [taper, hout, hfar]
      · simp [taper, hout]
  rw [hstep, taper_low]
  refine Option.bind_congr fun weight hw => ?_
  exact side_eq_fade sub_pos lt_sub_iff_add_lt' hramp (fade_mem_unit hw).2

/-- Only the distance from the window counts, also where the bounds have changed places. -/
theorem taper_eq_fade (value : ℝ) (low high : Option ℝ) (tolerance : ℝ) :
    taper value low high tolerance = fade tolerance (excess value low high) := by
  cases high with
  | some high => rw [taper_high, taper_low, excess, fade_max, Option.elim_some]
  | none =>
    rw [taper_low, excess, Option.elim_none]
    rcases le_total (low.elim 0 (· - value)) 0 with h | h
    · rw [max_eq_right h, fade_inside h, fade_inside le_rfl]
    · rw [max_eq_left h]

section

variable {low high : Option ℝ} {u v w : ℝ}

theorem excess_nonpos_iff :
    excess v low high ≤ 0 ↔ (∀ bound ∈ low, bound ≤ v) ∧ ∀ bound ∈ high, v ≤ bound := by
  rw [excess, max_le_iff]
  cases low <;> cases high <;> simp

theorem abs_excess_sub_le (u v : ℝ) (low high : Option ℝ) :
    |excess u low high - excess v low high| ≤ |u - v| := by
  refine (abs_max_sub_max_le_max ..).trans (max_le ?_ ?_)
  · cases low with
    | none => simp
    | some bound => simp [abs_sub_comm]
  · cases high with
    | none => simp
    | some bound => simp

theorem excess_le_max (huv : u ≤ v) (hvw : v ≤ w) :
    excess v low high ≤ max (excess u low high) (excess w low high) := by
  refine max_le ?_ ?_
  · refine le_max_of_le_left (le_max_of_le_left ?_)
    cases low with
    | none => exact le_rfl
    | some bound => exact sub_le_sub_left huv bound
  · refine le_max_of_le_right (le_max_of_le_right ?_)
    cases high with
    | none => exact le_rfl
    | some bound => exact sub_le_sub_right hvw bound

end

end ParticleAutomaton
