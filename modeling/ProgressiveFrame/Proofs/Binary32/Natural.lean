import Mathlib
import ProgressiveFrame.Decimal.Fixed

/-!
# Natural numbers in single precision

Which patterns are natural numbers, and what the operations on ray counts make of them.

* `Binary32.unpack_toModel`: the machine sees the pattern of a number as it is.
* `Binary32.max_zero`: a number with a positive sign is not less than zero.
* `Binary32.IsNatural`: the exact value of a number is a natural number.
* `Binary32.IsNatural.unique`: a natural number has one pattern.
* `Binary32.IsNatural.trunc_eq`: it is its own whole part.
-/

namespace ProgressiveFrame.Binary32

open Float.Model UnpackedFloat

/-! ## The machine's view of a pattern -/

/-- A pattern consists of its sign, exponent and fraction. -/
theorem packComponents_unpack (b : BitVec 32) :
    packComponents .binary32 (Sign.ofBitVec (@unpackSign .binary32 b)) (@unpackExponent .binary32 b)
      (@unpackMantissa .binary32 b) = b := by
  have hsign (v : BitVec 1) : (Sign.ofBitVec v).toBitVec = v := by
    revert v
    decide
  ext k hk
  rw [packComponents, hsign, unpackSign, unpackExponent, unpackMantissa]
  simp
  grind

theorem pack_subnormal (s : Sign) (m : BitVec 23) (hm : 0 < m.toNat) :
    UnpackedFloat.pack .binary32 (.finite s m.toNat (-149) hm) = packComponents .binary32 s 0#8 m := by
  have hlog : m.toNat.log2 < 23 := (Nat.log2_lt (Nat.ne_of_gt hm)).mpr m.isLt
  have hshort : ¬ m.toNat.log2 + 1 = Format.binary32.mantissaBits := by
    change ¬ m.toNat.log2 + 1 = 24
    omega
  have hfits : ¬ 2 ^ 8 ≤ (-149 + (Format.binary32.exponentBias : Int) + (23 : Nat)).toNat + 1 := by decide
  rw [UnpackedFloat.pack]
  simp only [hshort, hfits, if_false]
  rw [BitVec.ofNat_toNat, BitVec.setWidth_eq]

theorem toNat_one_append (m : BitVec 23) : (1#1 ++ m).toNat = 2 ^ 23 + m.toNat := by
  rw [BitVec.toNat_append, ← Nat.shiftLeft_add_eq_or_of_lt m.isLt]
  rfl

theorem log2_one_append (m : BitVec 23) : (1#1 ++ m).toNat.log2 = 23 := by
  have hlt := m.isLt
  rw [Nat.log2_eq_iff (by rw [toNat_one_append]; omega), toNat_one_append]
  omega

theorem pack_normal (s : Sign) (e : BitVec 8) (m : BitVec 23) (hones : e ≠ -1#8) (hm : 0 < (1#1 ++ m).toNat) :
    UnpackedFloat.pack .binary32
      (.finite s (1#1 ++ m).toNat ((e.toNat : Int) - (Format.binary32.exponentBias + (23 : Nat))) hm) =
        packComponents .binary32 s e m := by
  have hlt := m.isLt
  have hexponent : ((e.toNat : Int) - (Format.binary32.exponentBias + (23 : Nat)) + Format.binary32.exponentBias +
      (23 : Nat)).toNat = e.toNat := by omega
  have hfits : ¬ 2 ^ 8 ≤ e.toNat + 1 := by
    have hne : e.toNat ≠ 255 := fun h => hones (BitVec.eq_of_toNat_eq h)
    have hbyte := e.isLt
    omega
  have hlong : (1#1 ++ m).toNat.log2 + 1 = Format.binary32.mantissaBits := by
    rw [log2_one_append]
    rfl
  have hfraction : BitVec.ofNat 23 (1#1 ++ m).toNat = m := by
    refine BitVec.eq_of_toNat_eq ?_
    rw [BitVec.toNat_ofNat, toNat_one_append]
    omega
  rw [UnpackedFloat.pack]
  simp only [hexponent, hfits, hlong, if_false, if_true, hfraction, BitVec.ofNat_toNat, BitVec.setWidth_eq]

/-- A pattern that is unpacked and packed is what it was, unless it is not a number. -/
theorem pack_unpack {b : BitVec 32}
    (h : @unpackExponent .binary32 b = -1#8 → @unpackMantissa .binary32 b = 0#23) :
    UnpackedFloat.pack .binary32 (UnpackedFloat.unpack .binary32 b) = b := by
  have hcomponents := packComponents_unpack b
  unfold UnpackedFloat.unpack
  simp only []
  split
  case isTrue hones =>
    rw [hones, h hones] at hcomponents
    rw [if_pos (h hones)]
    exact hcomponents
  case isFalse hones =>
    split
    case isTrue hzero =>
      rw [hzero] at hcomponents
      split
      case isTrue hm =>
        rw [hm] at hcomponents
        exact hcomponents
      case isFalse hm =>
        rw [hzero]
        exact (pack_subnormal _ _ _).trans hcomponents
    case isFalse hzero => exact (pack_normal _ _ _ hones _).trans hcomponents

variable {x y : Binary32} {n : Nat}

theorem toNat_magnitude (x : Binary32) : x.magnitude.toNat = x.bits.toNat % 2 ^ 31 := by
  rw [magnitude, UInt32.toNat_and]
  exact Nat.and_two_pow_sub_one_eq_mod _ 31

/-- A pattern without its sign bit is its magnitude. -/
theorem toNat_lt_of_isNegative (h : x.isNegative = false) : x.bits.toNat < 2 ^ 31 := by
  refine Nat.lt_of_not_le fun hle => ?_
  have hbit : x.bits.toNat.testBit 31 = true := Nat.testBit_of_two_pow_le_and_two_pow_add_one_gt hle x.bits.toNat_lt
  rw [isNegative, bne_eq_false_iff_eq, ← UInt32.toNat_inj, UInt32.toNat_and] at h
  have hand := congrArg (Nat.testBit · 31) (h : x.bits.toNat &&& 2 ^ 31 = 0)
  rw [Nat.testBit_and, hbit] at hand
  exact absurd hand (by decide)

theorem toNat_unpackExponent (b : BitVec 32) : (@unpackExponent .binary32 b).toNat = b.toNat / 2 ^ 23 % 2 ^ 8 := by
  rw [unpackExponent]
  simp [BitVec.extractLsb_toNat, Nat.shiftRight_eq_div_pow]

theorem toNat_unpackMantissa (b : BitVec 32) : (@unpackMantissa .binary32 b).toNat = b.toNat % 2 ^ 23 := by
  rw [unpackMantissa]
  simp [BitVec.extractLsb_toNat]

theorem toNat_unpackSign (b : BitVec 32) : (@unpackSign .binary32 b).toNat = b.toNat / 2 ^ 31 := by
  have hlt : b.toNat < 2 ^ 32 := b.isLt
  rw [unpackSign]
  simp [BitVec.extractLsb_toNat, Nat.shiftRight_eq_div_pow]
  omega

/-- All exponent bits and a fraction make a pattern that is not a number. -/
theorem unpackMantissa_eq_zero (h : x.isNaN = false)
    (hones : @unpackExponent .binary32 x.bits.toBitVec = -1#8) :
    @unpackMantissa .binary32 x.bits.toBitVec = 0#23 := by
  have hlt : x.magnitude ≤ 0x7f800000 := UInt32.not_lt.mp (of_decide_eq_false h)
  have hle : x.bits.toNat % 2 ^ 31 ≤ 0x7f800000 := by
    rw [← toNat_magnitude]
    exact UInt32.le_iff_toNat_le.mp hlt
  have hexponent : x.bits.toNat / 2 ^ 23 % 2 ^ 8 = 255 := by
    rw [← UInt32.toNat_toBitVec, ← toNat_unpackExponent, hones]
    rfl
  refine BitVec.eq_of_toNat_eq ?_
  rw [toNat_unpackMantissa]
  change x.bits.toNat % 2 ^ 23 = 0
  omega

/-- The machine sees the pattern of a number as it is. -/
theorem unpack_toModel (h : x.isNaN = false) :
    x.toFloat32.toModel.unpack = UnpackedFloat.unpack .binary32 x.bits.toBitVec :=
  congrArg (UnpackedFloat.unpack .binary32) (pack_unpack (unpackMantissa_eq_zero h))

/-! ## Comparisons -/

/-- A comparison looks at what is unpacked. -/
theorem le_eq (x y : Binary32) : Scalar.le x y = x.toFloat32.toModel.unpack.le y.toFloat32.toModel.unpack :=
  (Bool.decide_eq_true).trans (Bool.decide_eq_true)

theorem le_self (h : x.isNaN = false) : Scalar.le x x = true := by
  have hnumber : UnpackedFloat.unpack .binary32 x.bits.toBitVec ≠ .notANumber := by
    have hzero := unpackMantissa_eq_zero h
    unfold UnpackedFloat.unpack
    grind
  rw [le_eq, unpack_toModel h]
  cases hu : UnpackedFloat.unpack .binary32 x.bits.toBitVec with
  | notANumber => exact absurd hu hnumber
  | infinity s => cases s <;> rfl
  | zero s => rfl
  | finite s m e hm => cases s <;> simp [UnpackedFloat.le, UnpackedFloat.compare]

/-- A positive number is not at most zero. -/
theorem le_zero_of_isNegative (hnan : x.isNaN = false) (hsign : x.isNegative = false) (hne : x ≠ zero) :
    Scalar.le x zero = false := by
  have hlt := toNat_lt_of_isNegative hsign
  have hzero : zero.toFloat32.toModel.unpack = .zero .positive := rfl
  have hpositive : Sign.ofBitVec (@unpackSign .binary32 x.bits.toBitVec) = .positive := by
    refine if_pos (BitVec.eq_of_toNat_eq ?_)
    rw [toNat_unpackSign]
    exact Nat.div_eq_of_lt hlt
  rw [le_eq, unpack_toModel hnan, hzero]
  unfold UnpackedFloat.unpack
  simp only [hpositive]
  split
  case isTrue hones => rw [if_pos (unpackMantissa_eq_zero hnan hones)]; rfl
  case isFalse hones =>
    split
    case isTrue he =>
      split
      case isTrue hm =>
        -- No bit is left that could be set.
        have hexponent := congrArg BitVec.toNat he
        have hmantissa := congrArg BitVec.toNat hm
        rw [toNat_unpackExponent] at hexponent
        rw [toNat_unpackMantissa] at hmantissa
        change x.bits.toNat / 2 ^ 23 % 2 ^ 8 = 0 at hexponent
        change x.bits.toNat % 2 ^ 23 = 0 at hmantissa
        have hbits : x.bits.toNat = 0 := by omega
        exact absurd (congrArg Binary32.mk (UInt32.toNat_inj.mp hbits)) hne
      case isFalse hm => rfl
    case isFalse he => rfl

/-- A number with a positive sign is the greater one of itself and zero. -/
theorem max_zero (hnan : x.isNaN = false) (hsign : x.isNegative = false) : Scalar.max x zero = x := by
  by_cases hzero : x = zero
  · rw [hzero, Scalar.max, ite_self]
  · rw [Scalar.max, le_zero_of_isNegative hnan hsign hzero, le_self hnan]
    rfl

/-! ## Exact values -/

/-- The number is a natural number, and zero only with a positive sign. -/
structure IsNatural (x : Binary32) (n : Nat) : Prop where
  finite : x.magnitude < 0x7f800000
  isNegative : x.isNegative = false
  value : x.significand <<< x.exponent = n <<< 149

theorem toNat_magnitude_shiftRight (hsign : x.isNegative = false) :
    (x.magnitude >>> 23).toNat = x.bits.toNat / 2 ^ 23 := by
  have hlt := toNat_lt_of_isNegative hsign
  rw [UInt32.toNat_shiftRight, toNat_magnitude, Nat.mod_eq_of_lt hlt]
  exact Nat.shiftRight_eq_div_pow _ 23

theorem exponent_eq (hsign : x.isNegative = false) : x.exponent = x.bits.toNat / 2 ^ 23 - 1 := by
  rw [exponent, toNat_magnitude_shiftRight hsign]

theorem significand_eq (hsign : x.isNegative = false) :
    x.significand = x.bits.toNat % 2 ^ 23 + if x.bits.toNat / 2 ^ 23 = 0 then 0 else 2 ^ 23 := by
  have hlt := toNat_lt_of_isNegative hsign
  have hfraction : (x.magnitude &&& 0x7fffff).toNat = x.bits.toNat % 2 ^ 23 := by
    rw [UInt32.toNat_and, toNat_magnitude, Nat.mod_eq_of_lt hlt]
    exact Nat.and_two_pow_sub_one_eq_mod _ 23
  have hzero : x.magnitude >>> 23 = 0 ↔ x.bits.toNat / 2 ^ 23 = 0 := by
    rw [← UInt32.toNat_inj, toNat_magnitude_shiftRight hsign]
    rfl
  unfold significand
  simp only [hfraction, hzero]
  split <;> rfl

/-- Sign, significand and exponent determine the pattern. -/
theorem eq_of_significand_of_exponent (hx : x.isNegative = false) (hy : y.isNegative = false)
    (hs : x.significand = y.significand) (he : x.exponent = y.exponent) : x = y := by
  rw [significand_eq hx, significand_eq hy] at hs
  rw [exponent_eq hx, exponent_eq hy] at he
  have hbits : x.bits.toNat = y.bits.toNat := by
    split at hs <;> split at hs <;> omega
  exact congrArg Binary32.mk (UInt32.toNat_inj.mp hbits)

namespace IsNatural

theorem value_eq (h : x.IsNatural n) : x.significand * 2 ^ x.exponent = n * 2 ^ 149 := by
  rw [← Nat.shiftLeft_eq, h.value, Nat.shiftLeft_eq]

/-- Of two patterns for one number neither has the lesser exponent, since the other would leave a bit unused. -/
theorem exponent_le (hx : x.IsNatural n) (hy : y.IsNatural n) : y.exponent ≤ x.exponent := by
  refine Nat.le_of_not_lt fun hlt => ?_
  have hvalue : x.significand * 2 ^ x.exponent = y.significand * 2 ^ (y.exponent - x.exponent) * 2 ^ x.exponent := by
    rw [hx.value_eq, ← hy.value_eq, Nat.mul_assoc, ← Nat.pow_add, Nat.sub_add_cancel (Nat.le_of_lt hlt)]
  have hcancel := Nat.eq_of_mul_eq_mul_right (Nat.two_pow_pos _) hvalue
  have htwo : 2 ≤ 2 ^ (y.exponent - x.exponent) := Nat.le_self_pow (by omega) 2
  have hless : x.significand < 2 ^ 24 := by
    rw [significand_eq hx.isNegative]
    split <;> omega
  have hmore : 2 ^ 23 ≤ y.significand := by
    rw [exponent_eq hy.isNegative] at hlt
    rw [significand_eq hy.isNegative, if_neg (by omega)]
    omega
  have hproduct := Nat.mul_le_mul hmore htwo
  omega

/-- A natural number has one pattern. -/
theorem unique (hx : x.IsNatural n) (hy : y.IsNatural n) : x = y := by
  have he : x.exponent = y.exponent := Nat.le_antisymm (exponent_le hy hx) (exponent_le hx hy)
  have hvalue := hx.value_eq.trans hy.value_eq.symm
  rw [he] at hvalue
  exact eq_of_significand_of_exponent hx.isNegative hy.isNegative
    (Nat.eq_of_mul_eq_mul_right (Nat.two_pow_pos _) hvalue) he

theorem isNaN (h : x.IsNatural n) : x.isNaN = false :=
  decide_eq_false (UInt32.lt_asymm h.finite)

/-- Below one there is no natural number but zero. -/
theorem eq_zero_of_lt (h : x.IsNatural n) (hlt : x.bits.toNat / 2 ^ 23 < 127) : x = zero := by
  have hless : x.significand < 2 ^ 24 := by
    rw [significand_eq h.isNegative]
    split <;> omega
  have hpow : 2 ^ x.exponent ≤ 2 ^ 125 := Nat.pow_le_pow_right (by decide) (by rw [exponent_eq h.isNegative]; omega)
  have hproduct : n * 2 ^ 149 < 2 ^ 149 := by
    rw [← h.value_eq]
    calc x.significand * 2 ^ x.exponent ≤ x.significand * 2 ^ 125 := Nat.mul_le_mul_left _ hpow
      _ < 2 ^ 24 * 2 ^ 125 := Nat.mul_lt_mul_of_pos_right hless (Nat.two_pow_pos _)
      _ = 2 ^ 149 := by decide
  obtain rfl : n = 0 := by omega
  exact h.unique ⟨by decide, by decide, by decide⟩

/-- The bits of a natural number that are worth less than one are clear. -/
theorem dvd_bits (h : x.IsNatural n) (hone : 127 ≤ x.bits.toNat / 2 ^ 23) (hwhole : x.bits.toNat / 2 ^ 23 < 150) :
    2 ^ (150 - x.bits.toNat / 2 ^ 23) ∣ x.bits.toNat := by
  have hexponent := exponent_eq h.isNegative
  have hsignificand := significand_eq h.isNegative
  rw [if_neg (by omega)] at hsignificand
  have hvalue : x.significand * 2 ^ x.exponent = n * 2 ^ (150 - x.bits.toNat / 2 ^ 23) * 2 ^ x.exponent := by
    rw [h.value_eq, Nat.mul_assoc, ← Nat.pow_add]
    congr 2
    omega
  have hdvd : 2 ^ (150 - x.bits.toNat / 2 ^ 23) ∣ x.significand :=
    ⟨n, (Nat.eq_of_mul_eq_mul_right (Nat.two_pow_pos _) hvalue).trans (Nat.mul_comm _ _)⟩
  have hunit : 2 ^ (150 - x.bits.toNat / 2 ^ 23) ∣ 2 ^ 23 := Nat.pow_dvd_pow 2 (by omega)
  have hbits : x.bits.toNat = 2 ^ 23 * (x.bits.toNat / 2 ^ 23 - 1) + x.significand := by omega
  have hsum := Nat.dvd_add (Nat.dvd_mul_right_of_dvd hunit (x.bits.toNat / 2 ^ 23 - 1)) hdvd
  rwa [← hbits] at hsum

/-- A natural number is its own whole part. -/
theorem trunc_eq (h : x.IsNatural n) : x.trunc = x := by
  have hexponent := toNat_magnitude_shiftRight h.isNegative
  unfold trunc
  simp only []
  split
  case isTrue hlt =>
    have hless : x.bits.toNat / 2 ^ 23 < 127 := by
      rw [← hexponent]
      exact UInt32.lt_iff_toNat_lt.mp hlt
    rw [h.eq_zero_of_lt hless]
    rfl
  case isFalse hone =>
    split
    case isTrue hwhole => rfl
    case isFalse hfraction =>
      have hone : 127 ≤ x.bits.toNat / 2 ^ 23 := by
        rw [← hexponent]
        exact UInt32.le_iff_toNat_le.mp (UInt32.not_lt.mp hone)
      have hle : x.magnitude >>> 23 ≤ 150 := UInt32.le_of_lt (UInt32.not_le.mp hfraction)
      have hwhole : x.bits.toNat / 2 ^ 23 < 150 := by
        rw [← hexponent]
        exact UInt32.lt_iff_toNat_lt.mp (UInt32.not_le.mp hfraction)
      have hshift : ((150 : UInt32) - x.magnitude >>> 23).toNat % 32 = 150 - x.bits.toNat / 2 ^ 23 := by
        have h150 : (150 : UInt32).toNat = 150 := rfl
        rw [UInt32.toNat_sub_of_le _ _ hle, hexponent, h150, Nat.mod_eq_of_lt (by omega)]
      refine congrArg Binary32.mk (UInt32.toNat_inj.mp ?_)
      rw [UInt32.toNat_shiftLeft, UInt32.toNat_shiftRight, hshift, Nat.shiftRight_eq_div_pow, Nat.shiftLeft_eq,
        Nat.div_mul_cancel (h.dvd_bits hone hwhole), Nat.mod_eq_of_lt x.bits.toNat_lt]

theorem ofUInt8 (b : UInt8) : (ofUInt8 b).IsNatural b.toNat := by
  have hall : ∀ k < 256, (Binary32.ofNat k).magnitude < 0x7f800000 ∧ (Binary32.ofNat k).isNegative = false ∧
      (Binary32.ofNat k).significand <<< (Binary32.ofNat k).exponent = k <<< 149 := by decide +kernel
  obtain ⟨hfinite, hsign, hvalue⟩ := hall b.toNat b.toNat_lt
  exact ⟨hfinite, hsign, hvalue⟩

end IsNatural

/-- A byte is read back from the number that it is the value of, also when the number is cut at 255. -/
theorem toUInt8_min_ofUInt8 (b : UInt8) : (Scalar.min (ofUInt8 b) (Scalar.ofNat 255)).toUInt8 = b := by
  have hall : ∀ k < 256, (Scalar.min (Binary32.ofNat k) (Scalar.ofNat 255)).toUInt8.toNat = k := by decide +kernel
  exact UInt8.toNat_inj.mp (hall b.toNat b.toNat_lt)

end ProgressiveFrame.Binary32
