import Mathlib
import ParticleAutomaton.Lattice.Topology

namespace ParticleAutomaton

open Float.Model Float.Model.UnpackedFloat

/-- A float without a sign that is a number. -/
inductive Unsigned : UnpackedFloat → Prop
  | infinity : Unsigned (.infinity .positive)
  | zero : Unsigned (.zero .positive)
  | finite (m : Nat) (e : Int) (h : 0 < m) : Unsigned (.finite .positive m e h)

namespace Unsigned

theorem roundWithAccuracy (spec : Format) (m : Nat) (e : Int) (a : Accuracy) :
    Unsigned (UnpackedFloat.roundWithAccuracy spec .positive m e a) := by
  unfold UnpackedFloat.roundWithAccuracy
  simp only
  split
  · exact .zero
  · exact .finite ..

theorem normalize (spec : Format) {m : Int} (h : 0 ≤ m) (e : Int) :
    Unsigned (UnpackedFloat.normalize spec m e .positive) := by
  unfold UnpackedFloat.normalize
  split
  next hc =>
    rw [Int.compare_eq_lt] at hc
    omega
  next => exact .zero
  next => exact roundWithAccuracy ..

/-- A float that is not below zero has no sign, or is the zero with one. -/
theorem of_zero_le {y : UnpackedFloat} (h : (UnpackedFloat.zero .positive).le y = true) :
    Unsigned y ∨ y = .zero .negative := by
  cases y with
  | infinity s =>
    cases s with
    | negative => exact nomatch h
    | positive => exact Or.inl .infinity
  | notANumber => exact nomatch h
  | zero s =>
    cases s with
    | negative => exact Or.inr rfl
    | positive => exact Or.inl .zero
  | finite s m e hm =>
    cases s with
    | negative => exact nomatch h
    | positive => exact Or.inl (.finite m e hm)

theorem of_zero_lt {y : UnpackedFloat} (h : (UnpackedFloat.zero .positive).lt y = true) :
    Unsigned y := by
  cases y with
  | infinity s =>
    cases s with
    | negative => exact nomatch h
    | positive => exact .infinity
  | notANumber => exact nomatch h
  | zero s => exact nomatch h
  | finite s m e hm =>
    cases s with
    | negative => exact nomatch h
    | positive => exact .finite m e hm

theorem zero_le {y : UnpackedFloat} (h : Unsigned y) :
    (UnpackedFloat.zero .positive).le y = true := by
  cases h <;> rfl

theorem eq_zero_or_lt {y : UnpackedFloat} (h : Unsigned y) :
    y = .zero .positive ∨ (UnpackedFloat.zero .positive).lt y = true := by
  cases h with
  | infinity => exact Or.inr rfl
  | zero => exact Or.inl rfl
  | finite m e h => exact Or.inr rfl

theorem add {spec : Format} {x y : UnpackedFloat} (hx : Unsigned x)
    (hy : (UnpackedFloat.zero .positive).le y = true) : Unsigned (UnpackedFloat.add spec x y) := by
  rcases of_zero_le hy with hy | rfl
  · cases hx with
    | infinity =>
      cases hy with
      | infinity => exact .infinity
      | zero => exact .infinity
      | finite => exact .infinity
    | zero =>
      cases hy with
      | infinity => exact .infinity
      | zero => exact .zero
      | finite m e h => exact .finite m e h
    | finite m e h =>
      cases hy with
      | infinity => exact .infinity
      | zero => exact .finite m e h
      | finite m' e' h' =>
        apply normalize
        exact Int.add_nonneg (Int.natCast_nonneg _) (Int.natCast_nonneg _)
  · cases hx with
    | infinity => exact .infinity
    | zero => exact .zero
    | finite m e h => exact .finite m e h

theorem div {spec : Format} {x : UnpackedFloat} (hx : Unsigned x) (m : Nat) (e : Int)
    (h : 0 < m) : Unsigned (UnpackedFloat.div spec x (.finite .positive m e h)) := by
  cases hx with
  | infinity => exact .infinity
  | zero => exact .zero
  | finite m' e' h' => exact roundWithAccuracy ..

theorem unpack_packComponents {spec : Format} (e : BitVec spec.exponentBits)
    (m : BitVec spec.mantissaBitsWithoutImplicit) (h : e = -1#_ → m = 0#_) :
    Unsigned (UnpackedFloat.unpack spec (packComponents spec .positive e m)) := by
  have hsign : unpackSign (packComponents spec .positive e m) = 0#1 := unpackSign_packComponents ..
  unfold UnpackedFloat.unpack
  simp only [unpackMantissa_packComponents, unpackExponent_packComponents, hsign]
  split
  next he =>
    rw [if_pos (h he)]
    exact .infinity
  next =>
    split
    next =>
      split
      · exact .zero
      · exact .finite ..
    next => exact .finite ..

/-- A sign is not lost or found in the bits: all exponents but that of infinity are below it. -/
theorem unpack_pack (spec : Format) {f : UnpackedFloat} (h : Unsigned f) :
    Unsigned (UnpackedFloat.unpack spec (UnpackedFloat.pack spec f)) := by
  cases h with
  | infinity => exact unpack_packComponents _ _ fun _ => rfl
  | zero => exact unpack_packComponents _ _ fun _ => rfl
  | finite m e hm =>
    unfold UnpackedFloat.pack
    simp only
    split
    next => exact unpack_packComponents _ _ fun _ => rfl
    next hlt =>
      split
      next =>
        refine unpack_packComponents _ _ fun he => ?_
        have hn := congrArg BitVec.toNat he
        rw [BitVec.neg_one_eq_allOnes, BitVec.toNat_ofNat, BitVec.toNat_allOnes,
          Nat.mod_eq_of_lt (by omega)] at hn
        omega
      next =>
        refine unpack_packComponents _ _ fun he => ?_
        have hn := congrArg BitVec.toNat he
        have hpos := spec.he
        have htwo : 2 ≤ 2 ^ spec.exponentBits := Nat.le_self_pow (by omega) 2
        rw [BitVec.neg_one_eq_allOnes, BitVec.toNat_allOnes, BitVec.toNat_ofNat,
          Nat.zero_mod] at hn
        omega

/-- A mantissa has no more bits than its format. -/
theorem mantissa_lt {spec : Format} {b : BitVec spec.numBits} {s : Sign} {m : Nat} {e : Int}
    {h : 0 < m} (hu : UnpackedFloat.unpack spec b = .finite s m e h) :
    m < 2 ^ (1 + spec.mantissaBitsWithoutImplicit) := by
  unfold UnpackedFloat.unpack at hu
  simp only at hu
  split at hu
  next => split at hu <;> cases hu
  next =>
    split at hu
    next =>
      split at hu
      next => cases hu
      next =>
        obtain ⟨-, rfl, -⟩ := UnpackedFloat.finite.inj hu
        exact Nat.lt_of_lt_of_le (unpackMantissa b).isLt
          (Nat.pow_le_pow_right (by decide) (Nat.le_add_left ..))
    next =>
      obtain ⟨-, rfl, -⟩ := UnpackedFloat.finite.inj hu
      exact (1#1 ++ unpackMantissa b).isLt

/-- What a share leaves of one. If its exponent is smaller, the mantissa of one is shifted beyond
its bits. -/
theorem one_sub {spec : Format} {x : UnpackedFloat} (hx : Unsigned x)
    (hm : ∀ s m e h, x = .finite s m e h → m < 2 ^ 53)
    (hlt : x.lt (.finite .positive (2 ^ 52) (-52) (by decide)) = true) :
    Unsigned (UnpackedFloat.sub spec (.finite .positive (2 ^ 52) (-52) (by decide)) x) := by
  cases hx with
  | infinity => exact nomatch hlt
  | zero => exact .finite ..
  | finite m e h =>
    have hm := hm _ _ _ _ rfl
    simp only [UnpackedFloat.lt, UnpackedFloat.compare, beq_iff_eq, Option.some.injEq,
      Ordering.then_eq_lt, Int.compare_eq_lt, Int.compare_eq_eq, Nat.compare_eq_lt] at hlt
    apply normalize
    refine Int.sub_nonneg.mpr (Int.ofNat_le.mpr ?_)
    rw [Nat.shiftLeft_eq, Nat.shiftLeft_eq]
    rcases hlt with he | ⟨rfl, hlt⟩
    · have hshift : 2 ^ 1 ≤ 2 ^ (-52 - min (-52) e).toNat :=
        Nat.pow_le_pow_right (by decide) (by omega)
      have hkeep : (e - min (-52) e).toNat = 0 := by omega
      rw [hkeep]
      omega
    · exact Nat.mul_le_mul_right _ (Nat.le_of_lt hlt)

theorem eq_zero_of_le {x : UnpackedFloat} (hx : Unsigned x)
    (h : x.le (.zero .positive) = true) : x = .zero .positive := by
  cases hx with
  | infinity => exact nomatch h
  | zero => rfl
  | finite m e hm => exact nomatch h

theorem add_zero (spec : Format) {x : UnpackedFloat} (hx : Unsigned x) :
    UnpackedFloat.add spec x (.zero .positive) = x := by
  cases hx <;> rfl

/-- The bits of the zero without a sign are all zero. -/
theorem bits_eq_zero {b : BitVec (Format.numBits .binary64)}
    (h : UnpackedFloat.unpack .binary64 b = .zero .positive) : b = 0 := by
  unfold UnpackedFloat.unpack at h
  simp only at h
  split at h
  next =>
    split at h <;> cases h
  next =>
    split at h
    next he =>
      split at h
      next hm =>
        have hs : unpackSign b = 0#1 := by
          cases Decidable.em (unpackSign b = 0#1) with
          | inl hs => exact hs
          | inr hne => simp [Sign.ofBitVec, hne] at h
        refine BitVec.eq_of_getLsbD_eq fun i hi => ?_
        have hmi := congrArg (·.getLsbD i) hm
        have hei := congrArg (·.getLsbD (i - 52)) he
        have hsi := congrArg (·.getLsbD (i - 63)) hs
        simp [unpackMantissa, unpackExponent, unpackSign] at hmi hei hsi
        have hi : i < 64 := hi
        have hzero : b.getLsbD i = false := by
          by_cases hm : i ≤ 51
          · exact hmi hm
          · by_cases he : i ≤ 62
            · have hi : 52 + (i - 52) = i := by omega
              exact hi ▸ hei he
            · have hi : 63 + (i - 63) = i := by omega
              exact hi ▸ hsi (by omega)
        rw [hzero]
        exact (BitVec.getLsbD_zero (i := i)).symm
      next => cases h
    next => cases h

end Unsigned

theorem unpack_zero : (0.0 : Float).toModel.unpack = .zero .positive := rfl

theorem unpack_one : (1.0 : Float).toModel.unpack = .finite .positive (2 ^ 52) (-52) (by decide) :=
  rfl

theorem float_le_iff (x y : Float) : x ≤ y ↔ x.toModel.unpack.le y.toModel.unpack = true :=
  decide_eq_true_iff

theorem float_lt_iff (x y : Float) : x < y ↔ x.toModel.unpack.lt y.toModel.unpack = true :=
  decide_eq_true_iff

theorem float_eq_zero {x : Float} (h : x.toModel.unpack = .zero .positive) : x = 0.0 := by
  obtain ⟨⟨bits, valid⟩⟩ := x
  have hb : bits = 0 := UInt64.toBitVec_inj.mp (Unsigned.bits_eq_zero h)
  subst hb
  rfl

/-- The floats without a sign are zero and those above it. -/
theorem unsigned_iff {x : Float} : Unsigned x.toModel.unpack ↔ x = 0.0 ∨ 0.0 < x := by
  rw [float_lt_iff, unpack_zero]
  constructor
  · intro h
    exact h.eq_zero_or_lt.imp_left float_eq_zero
  · rintro (rfl | h)
    · exact .zero
    · exact .of_zero_lt h

theorem zero_le_of_unsigned {x : Float} (h : Unsigned x.toModel.unpack) : 0.0 ≤ x :=
  (float_le_iff 0.0 x).mpr h.zero_le

theorem unsigned_add {x y : Float} (hx : Unsigned x.toModel.unpack) (hy : 0.0 ≤ y) :
    Unsigned (x + y).toModel.unpack := by
  rw [float_le_iff, unpack_zero] at hy
  exact (hx.add hy).unpack_pack .binary64

/-- The mean over the directions of a neighborhood. -/
theorem unsigned_mean {x : Float} (hx : Unsigned x.toModel.unpack) (t : Topology) :
    Unsigned (x / Float.ofInt t.count).toModel.unpack := by
  have hcount : ∃ m e h, (Float.ofInt t.count).toModel.unpack = .finite .positive m e h := by
    cases t with
    | square4 => exact ⟨_, _, _, rfl⟩
    | hex6 => exact ⟨_, _, _, rfl⟩
    | square8 => exact ⟨_, _, _, rfl⟩
  obtain ⟨m, e, h, hc⟩ := hcount
  have hd : Unsigned (UnpackedFloat.div .binary64 x.toModel.unpack (.finite .positive m e h)) :=
    hx.div m e h
  rw [← hc] at hd
  exact hd.unpack_pack .binary64

/-- The rest that a share leaves of one. -/
theorem unsigned_rest {x : Float} (hx : Unsigned x.toModel.unpack) (h : x < 1.0) :
    Unsigned (1.0 - x).toModel.unpack := by
  rw [float_lt_iff, unpack_one] at h
  have hs : Unsigned (UnpackedFloat.sub .binary64 (1.0 : Float).toModel.unpack x.toModel.unpack) :=
    hx.one_sub (fun s m e hm hu => Unsigned.mantissa_lt hu) h
  exact hs.unpack_pack .binary64

theorem float_eq_zero_of_le {x : Float} (hx : Unsigned x.toModel.unpack) (h : x ≤ 0.0) :
    x = 0.0 := by
  rw [float_le_iff, unpack_zero] at h
  exact float_eq_zero (hx.eq_zero_of_le h)

/-- To add zero to a float without a sign is to pack it again. -/
theorem float_add_zero {x : Float} (hx : Unsigned x.toModel.unpack) : x + 0.0 = x := by
  obtain ⟨⟨bits, valid⟩⟩ := x
  have hsum := hx.add_zero .binary64
  rw [← unpack_zero] at hsum
  have hpack := UnpackedFloat.pack_unpack_of_valid valid
  have hbits : (Float.ofModel ⟨bits, valid⟩ + 0.0).toModel.toBits = bits := by
    apply UInt64.toBitVec_inj.mp
    show UnpackedFloat.pack .binary64 (UnpackedFloat.add .binary64 _ _) = bits.toBitVec
    rw [hsum]
    exact hpack
  apply congrArg Float.ofModel
  exact Float.Model.mk.injEq .. ▸ hbits

end ParticleAutomaton
