import ParticleAutomaton.Proofs.NumeralTexts

namespace ParticleAutomaton

namespace Decimal

/-- Zero has no zeros in front of a point. -/
def Placed (d : Decimal) : Prop := d.digits = 0 → d.exponent ≤ 0

theorem Placed.trim {d : Decimal} (h : d.Placed) (fuel : Nat) : (d.trim fuel).Placed := by
  induction fuel generalizing d with
  | zero => exact h
  | succ fuel ih =>
    rw [Decimal.trim]
    split
    next hd =>
      refine ih fun hz => ?_
      have hz : d.digits / 10 = 0 := hz
      omega
    next => exact h

namespace Interval

/-- Only an interval that begins at zero contains zero. -/
theorem contains_zero {i : Interval} {e : Int} (h : i.contains 0 e = true) : i.low = 0 := by
  have hscale : 0 < Nat.pow 10 (-e).toNat := Nat.pow_pos (by decide)
  unfold contains at h
  simp only [Nat.zero_mul] at h
  split at h
  · simp only [Bool.and_eq_true, decide_eq_true_eq, Nat.le_zero, Nat.mul_eq_zero] at h
    omega
  · simp at h

theorem contains_of_nearest? {i : Interval} {tie : Tie} {e : Int} {d : Nat}
    (h : i.nearest? tie e = some d) : i.contains d e = true := by
  have hpair : ∀ p : Nat × Nat, (if i.contains p.1 e then some p.1
      else if i.contains p.2 e then some p.2 else none) = some d → i.contains d e = true := by
    intro p hp
    split at hp
    next hc => exact Option.some.inj hp ▸ hc
    next =>
      split at hp
      next hc => exact Option.some.inj hp ▸ hc
      next => exact nomatch hp
  exact hpair _ h

theorem placed_shortest {i : Interval} {tie : Tie} {start : Int}
    (h : i.low ≠ 0 ∨ i.magnitude 700 start ≤ 0) : (i.shortest tie start).Placed := by
  unfold shortest
  simp only
  intro hz
  cases hf : (List.range 17).findSome? fun n =>
      (i.nearest? tie (i.magnitude 700 start - (n + 1 : Nat))).map fun d =>
        (⟨d, i.magnitude 700 start - (n + 1 : Nat)⟩ : Decimal) with
  | none => exact Int.le_refl 0
  | some found =>
    rw [hf] at hz
    obtain ⟨n, -, hn⟩ := List.exists_of_findSome?_eq_some hf
    obtain ⟨d, hd, rfl⟩ := Option.map_eq_some_iff.mp hn
    cases (show d = 0 from hz)
    have hlow := contains_zero (contains_of_nearest? hd)
    have hmagnitude := h.resolve_left (not_not_intro hlow)
    simp only [Option.getD_some]
    omega

theorem low_ofBinary {m : Nat} (hm : 0 < m) (q : Int) (narrow : Bool) :
    (ofBinary m q narrow).low ≠ 0 := by
  have hgap : 0 < 4 * m - if narrow then 1 else 2 := by
    split <;> omega
  exact Nat.pos_iff_ne_zero.mp (Nat.mul_pos hgap (Nat.pow_pos (by decide)))

/-- The value zero is below every power of ten. -/
theorem magnitude_ofBinary_zero (q : Int) (narrow : Bool) (start : Int) :
    (ofBinary 0 q narrow).magnitude 700 start = start := by
  have hvalue : (ofBinary 0 q narrow).value = 0 := by simp [ofBinary]
  have hden : 0 < (ofBinary 0 q narrow).den :=
    Nat.mul_pos (by decide) (Nat.pow_pos (by decide))
  rw [magnitude, if_pos]
  rw [hvalue, Nat.zero_mul]
  exact Nat.mul_pos (Nat.pow_pos (by decide)) hden

end Interval

/-- The digits of zero bits, which are no number's, are looked for far behind the point. -/
theorem placed_ofBits (tie : Tie) (bits : UInt64) : (ofBits tie bits).Placed := by
  unfold ofBits
  simp only
  refine Placed.trim (Interval.placed_shortest ?_) 20
  split
  next hb =>
    rcases Nat.eq_zero_or_pos (bits.toNat % leadingBit) with hm | hm
    · right
      rw [hm, Interval.magnitude_ofBinary_zero]
      decide
    · exact Or.inl (Interval.low_ofBinary hm _ _)
  next => exact Or.inl (Interval.low_ofBinary (Nat.add_pos_right _ (by decide)) _ _)

end Decimal

theorem take_toDigits_of_leading_zero {n k : Nat} {ds : List Char}
    (h : (Nat.toDigits 10 n).take k = '0' :: ds) : ds = [] := by
  have hwhole : Nat.toDigits 10 n = '0' :: (ds ++ (Nat.toDigits 10 n).drop k) := by
    rw [← List.cons_append, ← h, List.take_append_drop]
  exact (List.append_eq_nil_iff.mp (toDigits_of_leading_zero hwhole)).1

/-- A number that is written without a power of ten has no needless zeros in front. -/
theorem Decimal.Placed.positional {d : Decimal} (h : d.Placed) :
    IsDigits d.positional.1 ∧ (∀ ds, d.positional.1 = '0' :: ds → ds = []) ∧
      ∀ c ∈ d.positional.2, c.isDigit = true := by
  have hds := isDigits_toDigits d.digits
  have hzeros : ∀ n, ∀ c ∈ List.replicate n '0', c.isDigit = true := by
    intro n c hc
    rw [List.eq_of_mem_replicate hc]
    rfl
  unfold Decimal.positional Decimal.digitsOf
  simp only
  split
  next he =>
    refine ⟨⟨by simp [hds.1], fun c hc => ?_⟩, fun ds hz => ?_, nofun⟩
    · exact (List.mem_append.mp hc).elim (hds.2 c) (hzeros _ c)
    · cases hd : Nat.toDigits 10 d.digits with
      | nil => exact absurd hd hds.1
      | cons c cs =>
        rw [hd, List.cons_append] at hz
        obtain ⟨rfl, rfl⟩ := List.cons.inj hz
        have hexponent := h (eq_zero_of_toDigits hd)
        rw [toDigits_of_leading_zero hd, show d.exponent.toNat = 0 by omega]
        rfl
  next =>
    split
    next =>
      refine ⟨⟨by simp, fun c hc => ?_⟩, fun ds hz => ?_, fun c hc => ?_⟩
      · rw [List.mem_singleton.mp hc]
        rfl
      · exact (List.cons.inj hz).2.symm
      · exact (List.mem_append.mp hc).elim (hzeros _ c) (hds.2 c)
    next hlong =>
      refine ⟨⟨fun hn => ?_, fun c hc => hds.2 c (List.mem_of_mem_take hc)⟩, fun ds hz => ?_,
        fun c hc => hds.2 c (List.mem_of_mem_drop hc)⟩
      · rcases List.take_eq_nil_iff.mp hn with hlen | hnil
        · omega
        · exact hds.1 hnil
      · exact take_toDigits_of_leading_zero hz

/-- Every float is written as a numeral of the notation. -/
theorem Numeral.wellFormed_ofFloat (x : Float) : (ofFloat x).WellFormed := by
  have hplaced := Decimal.placed_ofBits .toEven x.abs.toBits
  have hds := isDigits_toDigits (Decimal.ofBits .toEven x.abs.toBits).digits
  unfold ofFloat
  simp only
  split
  next => exact ⟨by simp [IsDigits], fun ds hz => (List.cons.inj hz).2.symm, by simp, nofun⟩
  next =>
    split
    next =>
      obtain ⟨hwhole, hzero, hfraction⟩ := hplaced.positional
      refine ⟨hwhole, hzero, fun c hc => ?_, nofun⟩
      simp only at hc
      split at hc
      next =>
        rw [List.mem_singleton.mp hc]
        rfl
      next => exact hfraction c hc
    next =>
      refine ⟨⟨?_, fun c hc => hds.2 c (List.mem_of_mem_take hc)⟩, fun ds hz => ?_,
        fun c hc => hds.2 c (List.mem_of_mem_drop hc), fun e he => ?_⟩
      · simp [Decimal.digitsOf, hds.1]
      · exact take_toDigits_of_leading_zero hz
      · cases he
        exact isDigits_toDigits _

end ParticleAutomaton
