import Mathlib
import ProgressiveFrame.Time.Seconds

/-!
# Numbers of seconds

A number of seconds is read off the bits of a double. In the order of doubles it is too much to be counted just from
`secondsLimit` on, where infinity is the greatest of all and what is no number has no place. Below that it is counted as
the nearest number of nanoseconds.

* `unpack_cases`: the machine's view of a double, by its fields.
* `ofNat_secondsLimit_le_iff`: which fields make a double of at least `secondsLimit`.
* `Duration.ofFloat?_eq_none_iff`: of the numbers with a positive sign, these are the ones that cannot be counted.
* `roundDiv_eq_iff`, `Duration.isNearest_iff`: what rounding a quotient comes to.
* `Duration.ofFloat?_eq_some_iff`: the length of time of a number that can be counted.
-/

namespace ProgressiveFrame

open Float.Model UnpackedFloat

/-! ## Fields -/

/-- The exponent field of a double. -/
def doubleField (x : Float) : Nat := x.toBits.toNat / 2 ^ 52 % 2 ^ 11

/-- The fraction field of a double. -/
def doubleFraction (x : Float) : Nat := x.toBits.toNat % 2 ^ 52

/-- The sign bit of a double. -/
def doubleSignBit (x : Float) : Nat := x.toBits.toNat / 2 ^ 63

/-- The sign of a double. -/
def doubleSign (x : Float) : Sign := if doubleSignBit x = 0 then .positive else .negative

theorem doubleFraction_lt (x : Float) : doubleFraction x < 2 ^ 52 := Nat.mod_lt _ (by decide)

theorem doubleField_lt (x : Float) : doubleField x < 2 ^ 11 := Nat.mod_lt _ (by decide)

theorem doubleSign_eq_positive_iff {x : Float} : doubleSign x = .positive ↔ doubleSignBit x = 0 := by
  unfold doubleSign
  by_cases h : doubleSignBit x = 0
  · simp [h]
  · simp [h]

theorem toNat_exponentField (x : Float) : ((x.toBits >>> 52) &&& 0x7ff).toNat = doubleField x := by
  rw [UInt64.toNat_and, UInt64.toNat_shiftRight]
  show (x.toBits.toNat >>> 52) &&& (2 ^ 11 - 1) = _
  rw [Nat.and_two_pow_sub_one_eq_mod, Nat.shiftRight_eq_div_pow]
  rfl

theorem doubleExponent_eq (x : Float) : doubleExponent x = doubleField x - 1 := by
  unfold doubleExponent
  rw [toNat_exponentField]

theorem doubleSignificand_eq (x : Float) :
    doubleSignificand x = doubleFraction x + if doubleField x = 0 then 0 else 2 ^ 52 := by
  have hfield : (x.toBits >>> 52) &&& 0x7ff = 0 ↔ doubleField x = 0 := by
    rw [← UInt64.toNat_inj, toNat_exponentField]
    rfl
  have hfraction : (x.toBits &&& 0xfffffffffffff).toNat = doubleFraction x := by
    rw [UInt64.toNat_and]
    exact Nat.and_two_pow_sub_one_eq_mod _ 52
  unfold doubleSignificand
  simp only [hfield, hfraction]
  split <;> rfl

theorem shiftRight_eq_zero_iff (x : Float) : x.toBits >>> 63 = 0 ↔ doubleSignBit x = 0 := by
  rw [← UInt64.toNat_inj, UInt64.toNat_shiftRight, doubleSignBit]
  show x.toBits.toNat >>> 63 = 0 ↔ _
  rw [Nat.shiftRight_eq_div_pow]

/-! ## The machine's view -/

theorem toNat_unpackedField (b : BitVec 64) : (@unpackExponent .binary64 b).toNat = b.toNat / 2 ^ 52 % 2 ^ 11 := by
  rw [unpackExponent]
  simp [BitVec.extractLsb_toNat, Nat.shiftRight_eq_div_pow]

theorem toNat_unpackedFraction (b : BitVec 64) : (@unpackMantissa .binary64 b).toNat = b.toNat % 2 ^ 52 := by
  rw [unpackMantissa]
  simp [BitVec.extractLsb_toNat]

theorem toNat_unpackedSign (b : BitVec 64) : (@unpackSign .binary64 b).toNat = b.toNat / 2 ^ 63 := by
  have hlt : b.toNat < 2 ^ 64 := b.isLt
  rw [unpackSign]
  simp [BitVec.extractLsb_toNat, Nat.shiftRight_eq_div_pow]
  omega

theorem ofBitVec_unpackedSign (x : Float) :
    Sign.ofBitVec (@unpackSign .binary64 x.toBits.toBitVec) = doubleSign x := by
  have hzero : @unpackSign .binary64 x.toBits.toBitVec = 0#1 ↔ doubleSignBit x = 0 := by
    rw [← BitVec.toNat_inj, toNat_unpackedSign]
    rfl
  unfold Sign.ofBitVec doubleSign
  simp only [hzero]

/-- The five kinds of doubles: infinite, no number, zero, below the normal numbers, normal. -/
theorem unpack_cases (x : Float) :
    (doubleField x = 2047 ∧ doubleFraction x = 0 ∧ x.toModel.unpack = .infinity (doubleSign x)) ∨
    (doubleField x = 2047 ∧ doubleFraction x ≠ 0 ∧ x.toModel.unpack = .notANumber) ∨
    (doubleField x = 0 ∧ doubleFraction x = 0 ∧ x.toModel.unpack = .zero (doubleSign x)) ∨
    (doubleField x = 0 ∧ ∃ h, x.toModel.unpack = .finite (doubleSign x) (doubleFraction x) (-1074) h) ∨
    (0 < doubleField x ∧ doubleField x < 2047 ∧
      ∃ h, x.toModel.unpack = .finite (doubleSign x) (2 ^ 52 + doubleFraction x) (doubleField x - 1075) h) := by
  have hfield : (@unpackExponent .binary64 x.toBits.toBitVec).toNat = doubleField x := toNat_unpackedField _
  have hfraction : (@unpackMantissa .binary64 x.toBits.toBitVec).toNat = doubleFraction x := toNat_unpackedFraction _
  have hones : @unpackExponent .binary64 x.toBits.toBitVec = -1#11 ↔ doubleField x = 2047 := by
    rw [← hfield, ← BitVec.toNat_inj]
    rfl
  have hzeros : @unpackExponent .binary64 x.toBits.toBitVec = 0#11 ↔ doubleField x = 0 := by
    rw [← hfield, ← BitVec.toNat_inj]
    rfl
  have hempty : @unpackMantissa .binary64 x.toBits.toBitVec = 0#52 ↔ doubleFraction x = 0 := by
    rw [← hfraction, ← BitVec.toNat_inj]
    rfl
  have hnormal : (1#1 ++ @unpackMantissa .binary64 x.toBits.toBitVec).toNat = 2 ^ 52 + doubleFraction x := by
    rw [BitVec.toNat_append, ← Nat.shiftLeft_add_eq_or_of_lt (@unpackMantissa .binary64 x.toBits.toBitVec).isLt,
      hfraction]
    rfl
  have hlt : doubleField x < 2 ^ 11 := doubleField_lt x
  have hunpack : x.toModel.unpack = UnpackedFloat.unpack .binary64 x.toBits.toBitVec := rfl
  rw [hunpack]
  unfold UnpackedFloat.unpack
  simp only [ofBitVec_unpackedSign]
  by_cases h1 : doubleField x = 2047
  · rw [if_pos (hones.mpr h1)]
    by_cases h2 : doubleFraction x = 0
    · rw [if_pos (hempty.mpr h2)]
      exact .inl ⟨h1, h2, rfl⟩
    · rw [if_neg (hempty.not.mpr h2)]
      exact .inr (.inl ⟨h1, h2, rfl⟩)
  · rw [if_neg (hones.not.mpr h1)]
    by_cases h3 : doubleField x = 0
    · rw [if_pos (hzeros.mpr h3)]
      by_cases h2 : doubleFraction x = 0
      · rw [dif_pos (hempty.mpr h2)]
        exact .inr (.inr (.inl ⟨h3, h2, rfl⟩))
      · rw [dif_neg (hempty.not.mpr h2)]
        refine .inr (.inr (.inr (.inl ⟨h3, by omega, ?_⟩)))
        congr 1
        rw [hfield, h3]
        rfl
    · rw [if_neg (hzeros.not.mpr h3)]
      refine .inr (.inr (.inr (.inr ⟨by omega, by omega, by omega, ?_⟩)))
      congr 1
      rw [hfield]
      rfl

theorem isNaN_iff (x : Float) : x.isNaN = true ↔ doubleField x = 2047 ∧ doubleFraction x ≠ 0 := by
  show x.toModel.unpack.isNaN = true ↔ _
  obtain ⟨h1, h2, h⟩ | ⟨h1, h2, h⟩ | ⟨h1, -, h⟩ | ⟨h1, hm, h⟩ | ⟨h1, h2, hm, h⟩ := unpack_cases x
  · simp [h, h2, UnpackedFloat.isNaN]
  · simp [h, h1, h2, UnpackedFloat.isNaN]
  · simp [h, h1, UnpackedFloat.isNaN]
  · simp [h, h1, UnpackedFloat.isNaN]
  · simp [h, Nat.ne_of_lt h2, UnpackedFloat.isNaN]

/-! ## The order of doubles -/

theorem unpack_secondsLimit :
    (Float.ofNat secondsLimit).toModel.unpack = .finite .positive (2 ^ 52) 12 (by decide) := by
  have hbits : (Float.ofNat secondsLimit).toModel.toBits = 0x43f0000000000000 := by decide +kernel
  unfold Float.Model.unpack
  rw [hbits]
  rfl

theorem secondsLimit_le_iff (x : Float) : Float.ofNat secondsLimit ≤ x ↔
    (UnpackedFloat.finite .positive (2 ^ 52) 12 (by decide)).le x.toModel.unpack = true := by
  rw [← unpack_secondsLimit]
  show decide _ = true ↔ _
  rw [decide_eq_true_iff]
  rfl

theorem finite_le_finite_iff {s : Sign} {m : Nat} {e : Int} (hm : 0 < m) :
    (UnpackedFloat.finite .positive (2 ^ 52) 12 (by decide)).le (.finite s m e hm) = true ↔
      s = .positive ∧ (12 < e ∨ 12 = e ∧ 2 ^ 52 ≤ m) := by
  cases s with
  | negative => simp [UnpackedFloat.le, UnpackedFloat.compare]
  | positive =>
    simp only [UnpackedFloat.le, UnpackedFloat.compare, Option.any_some, true_and]
    rw [Ordering.isLE_then_iff_or, Int.compare_eq_lt, Int.compare_eq_eq, Nat.isLE_compare]

/-- The doubles from `secondsLimit` on have a positive sign and an exponent field of at least 1087, and are numbers. -/
theorem ofNat_secondsLimit_le_iff (x : Float) : Float.ofNat secondsLimit ≤ x ↔
    doubleSignBit x = 0 ∧ 1087 ≤ doubleField x ∧ x.isNaN = false := by
  have hlt : doubleFraction x < 2 ^ 52 := doubleFraction_lt x
  rw [secondsLimit_le_iff, ← Bool.not_eq_true, isNaN_iff, ← doubleSign_eq_positive_iff]
  obtain ⟨h1, h2, h⟩ | ⟨h1, h2, h⟩ | ⟨h1, -, h⟩ | ⟨h1, hm, h⟩ | ⟨h1, h2, hm, h⟩ := unpack_cases x
  · rw [h]
    cases doubleSign x with
    | negative => simp [UnpackedFloat.le, UnpackedFloat.compare]
    | positive => simp [UnpackedFloat.le, UnpackedFloat.compare, h1, h2]
  · rw [h]
    simp [UnpackedFloat.le, UnpackedFloat.compare, h1, h2]
  · rw [h]
    simp [UnpackedFloat.le, UnpackedFloat.compare, h1]
  · rw [h, finite_le_finite_iff]
    omega
  · rw [h, finite_le_finite_iff]
    exact and_congr_right fun _ => by omega

/-! ## Counting -/

theorem secondsLimit_mul_stepsPerOne : secondsLimit * stepsPerOne = 2 ^ 1138 := by decide +kernel

theorem doubleSteps_eq (x : Float) :
    doubleSteps x = (doubleFraction x + if doubleField x = 0 then 0 else 2 ^ 52) * 2 ^ (doubleField x - 1) := by
  rw [doubleSteps, Nat.shiftLeft_eq, doubleSignificand_eq, doubleExponent_eq]

/-- The steps of a double reach the limit just from the exponent field 1087 on. -/
theorem limit_le_steps_iff (x : Float) : secondsLimit * stepsPerOne ≤ doubleSteps x ↔ 1087 ≤ doubleField x := by
  have hlt : doubleFraction x < 2 ^ 52 := doubleFraction_lt x
  rw [secondsLimit_mul_stepsPerOne, doubleSteps_eq]
  constructor
  · intro hle
    refine Nat.le_of_not_lt fun hfield => Nat.not_lt_of_le hle ?_
    have hsmall : (doubleFraction x + if doubleField x = 0 then 0 else 2 ^ 52) < 2 ^ 53 := by
      split <;> omega
    calc
      (doubleFraction x + if doubleField x = 0 then 0 else 2 ^ 52) * 2 ^ (doubleField x - 1)
        < 2 ^ 53 * 2 ^ (doubleField x - 1) := Nat.mul_lt_mul_of_pos_right hsmall (Nat.two_pow_pos _)
      _ = 2 ^ (53 + (doubleField x - 1)) := (pow_add ..).symm
      _ ≤ 2 ^ 1138 := pow_le_pow_right₀ one_le_two (by omega)
  · intro hfield
    rw [if_neg (by omega)]
    calc
      2 ^ 1138 ≤ 2 ^ (52 + (doubleField x - 1)) := pow_le_pow_right₀ one_le_two (by omega)
      _ = 2 ^ 52 * 2 ^ (doubleField x - 1) := pow_add ..
      _ ≤ (doubleFraction x + 2 ^ 52) * 2 ^ (doubleField x - 1) := Nat.mul_le_mul_right _ (Nat.le_add_left _ _)

theorem hasNegativeSign_eq_false_iff (x : Float) : hasNegativeSign x = false ↔ doubleSignBit x = 0 := by
  rw [hasNegativeSign, bne_eq_false_iff_eq, shiftRight_eq_zero_iff]

/-- Of the numbers with a positive sign, those are counted whose steps stay below the limit. -/
theorem Duration.ofFloat?_eq {x : Float} (hnan : x.isNaN = false) (hsign : hasNegativeSign x = false) :
    Duration.ofFloat? x = if secondsLimit * stepsPerOne ≤ doubleSteps x then none
      else some ⟨roundDiv (doubleSteps x * nanosPerSecond) stepsPerOne⟩ := by
  unfold ofFloat?
  simp only [hnan, hsign, Bool.false_and, Bool.or_self, Bool.false_or, decide_eq_true_eq]

/-- A number with a positive sign is no length of time just from `secondsLimit` on. -/
theorem Duration.ofFloat?_eq_none_iff {x : Float} (hnan : x.isNaN = false) (hsign : hasNegativeSign x = false) :
    Duration.ofFloat? x = none ↔ Float.ofNat secondsLimit ≤ x := by
  rw [ofNat_secondsLimit_le_iff, ← limit_le_steps_iff, ← hasNegativeSign_eq_false_iff, ofFloat?_eq hnan hsign]
  by_cases hlong : secondsLimit * stepsPerOne ≤ doubleSteps x
  · rw [if_pos hlong]
    exact iff_of_true rfl ⟨hsign, hlong, hnan⟩
  · rw [if_neg hlong]
    exact iff_of_false nofun fun h => hlong h.2.1

/-- A number with a negative sign, or none, is below every length of time that is too much. -/
theorem not_secondsLimit_le {x : Float} (h : (x.isNaN || hasNegativeSign x) = true) :
    ¬ Float.ofNat secondsLimit ≤ x := by
  rw [ofNat_secondsLimit_le_iff, ← hasNegativeSign_eq_false_iff]
  rintro ⟨hsign, -, hnan⟩
  rw [hnan, hsign] at h
  cases h

/-! ## Rounding -/

/-- A quotient is rounded to the number that is no further than one half away, the even one of two. -/
theorem roundDiv_eq_iff {num den n : ℕ} (h : 0 < den) : roundDiv num den = n ↔
    2 * num ≤ (2 * n + 1) * den ∧ 2 * n * den ≤ 2 * num + den ∧
      (2 * num = (2 * n + 1) * den ∨ 2 * n * den = 2 * num + den → n % 2 = 0) := by
  have hlt : num % den < den := Nat.mod_lt num h
  have hnum : num = num / den * den + num % den := (Nat.div_add_mod' num den).symm
  rw [Nat.add_mul, Nat.one_mul, Nat.mul_assoc]
  unfold roundDiv
  generalize num / den = q at *
  generalize num % den = r at *
  subst hnum
  have hsucc : (q + 1) * den = q * den + den := Nat.succ_mul q den
  constructor
  · rintro rfl
    dsimp only
    split
    · omega
    · split
      · rcases Nat.mod_two_eq_zero_or_one q with hq | hq
        · rw [hq, Nat.add_zero]
          omega
        · rw [hq]
          omega
      · omega
  · rintro ⟨hle, hge, heven⟩
    -- The number is the quotient or the one after it.
    obtain rfl | rfl : n = q ∨ n = q + 1 := by
      have hlow : q ≤ n := Nat.le_of_not_lt fun hn => by
        have hmul := Nat.mul_le_mul_right den hn
        rw [Nat.succ_mul] at hmul
        omega
      have hhigh : n ≤ q + 1 := Nat.le_of_not_lt fun hn => by
        have hmul := Nat.mul_le_mul_right den hn
        rw [Nat.succ_mul] at hmul
        omega
      omega
    · rw [if_neg (by omega)]
      split <;> omega
    · dsimp only
      split
      · rfl
      · split <;> omega

/-- The length of time is the nearest one to a number of seconds, and of two that are as near the even one. -/
structure Duration.IsNearest (d : Duration) (seconds : ℚ) : Prop where
  near : |(d.nanos : ℚ) - seconds * 1000000000| ≤ 1 / 2
  even : |(d.nanos : ℚ) - seconds * 1000000000| = 1 / 2 → d.nanos % 2 = 0

/-- Distances from a quotient are counted in halves of its denominator. -/
theorem abs_sub_div {num den n : ℕ} (h : 0 < den) :
    |(n : ℚ) - num / den| = ((|2 * (n * den : ℤ) - 2 * num| : ℤ) : ℚ) / den * (1 / 2) := by
  have hden : (0 : ℚ) < den := Nat.cast_pos.mpr h
  have hdiff : (n : ℚ) - num / den = ((2 * (n * den : ℤ) - 2 * num : ℤ) : ℚ) / den * (1 / 2) := by
    push_cast
    field_simp
  rw [hdiff, abs_mul, abs_div, Int.cast_abs, abs_of_pos hden, abs_of_pos (one_half_pos (α := ℚ))]

/-- Rounding to nanoseconds takes the nearest number of them, and the even one of two. -/
theorem Duration.isNearest_iff {num den : ℕ} (h : 0 < den) {seconds : ℚ} (hs : seconds * 1000000000 = num / den)
    (d : Duration) : d.IsNearest seconds ↔ roundDiv num den = d.nanos := by
  have hden : (0 : ℚ) < den := Nat.cast_pos.mpr h
  have hle : |(d.nanos : ℚ) - num / den| ≤ 1 / 2 ↔ |2 * (d.nanos * den : ℤ) - 2 * num| ≤ den := by
    rw [abs_sub_div h, mul_le_iff_le_one_left (one_half_pos (α := ℚ)), div_le_one hden]
    exact_mod_cast Iff.rfl
  have heq : |(d.nanos : ℚ) - num / den| = 1 / 2 ↔ |2 * (d.nanos * den : ℤ) - 2 * num| = den := by
    rw [abs_sub_div h, mul_eq_right₀ (one_half_pos (α := ℚ)).ne', div_eq_one_iff_eq hden.ne']
    exact_mod_cast Iff.rfl
  rw [roundDiv_eq_iff h, Nat.add_mul, Nat.one_mul, Nat.mul_assoc]
  have hparts : d.IsNearest seconds ↔ |(d.nanos : ℚ) - num / den| ≤ 1 / 2 ∧
      (|(d.nanos : ℚ) - num / den| = 1 / 2 → d.nanos % 2 = 0) := hs ▸ ⟨fun h => ⟨h.near, h.even⟩, fun h => ⟨h.1, h.2⟩⟩
  rw [hparts, hle, heq, abs_le, abs_eq (Int.natCast_nonneg den), ← Int.natCast_mul]
  generalize d.nanos * den = product
  omega

/-- The double is this number of seconds, by the machine's view of it. Its sign is a positive one. -/
inductive IsSeconds (x : Float) : ℚ → Prop where
  | zero (h : x.toModel.unpack = .zero .positive) : IsSeconds x 0
  | finite {m : ℕ} {e : ℤ} {hm : 0 < m} (h : x.toModel.unpack = .finite .positive m e hm) :
    IsSeconds x (m * (2 : ℚ) ^ e)

theorem shiftLeft_div (m e k : ℕ) : ((m <<< e : ℕ) : ℚ) / (1 <<< k : ℕ) = m * (2 : ℚ) ^ ((e : ℤ) - k) := by
  rw [zpow_sub₀ two_ne_zero, zpow_natCast, zpow_natCast, Nat.shiftLeft_eq, Nat.one_shiftLeft, mul_div_assoc']
  push_cast
  rfl

theorem steps_div_stepsPerOne (x : Float) :
    (doubleSteps x : ℚ) / stepsPerOne = doubleSignificand x * (2 : ℚ) ^ ((doubleExponent x : ℤ) - 1074) :=
  shiftLeft_div (doubleSignificand x) (doubleExponent x) 1074

/-- The value of a double is its number of steps. -/
theorem isSeconds_iff {x : Float} {q : ℚ} : IsSeconds x q ↔
    doubleSignBit x = 0 ∧ doubleField x < 2047 ∧ q = doubleSteps x / stepsPerOne := by
  rw [← doubleSign_eq_positive_iff, steps_div_stepsPerOne, doubleSignificand_eq, doubleExponent_eq]
  obtain ⟨h1, h2, h⟩ | ⟨h1, h2, h⟩ | ⟨h1, h2, h⟩ | ⟨h1, hm, h⟩ | ⟨h1, h2, hm, h⟩ := unpack_cases x
  · refine iff_of_false ?_ (by omega)
    rintro (hx | hx) <;> cases h.symm.trans hx
  · refine iff_of_false ?_ (by omega)
    rintro (hx | hx) <;> cases h.symm.trans hx
  · rw [h1, h2, if_pos rfl, Nat.add_zero, Nat.cast_zero, zero_mul]
    constructor
    · rintro (hx | hx)
      · exact ⟨UnpackedFloat.zero.inj (h.symm.trans hx), by decide, rfl⟩
      · cases h.symm.trans hx
    · rintro ⟨hsign, -, rfl⟩
      exact .zero (hsign ▸ h)
  · rw [h1, if_pos rfl, Nat.add_zero]
    constructor
    · rintro (hx | hx)
      · cases h.symm.trans hx
      · obtain ⟨hsign, rfl, rfl⟩ := UnpackedFloat.finite.inj (h.symm.trans hx)
        exact ⟨hsign, by decide, rfl⟩
    · rintro ⟨hsign, -, rfl⟩
      exact .finite (hsign ▸ h)
  · have hexponent : ((doubleField x - 1 : ℕ) : ℤ) - 1074 = doubleField x - 1075 := by omega
    rw [if_neg (Nat.ne_of_gt h1), hexponent, Nat.add_comm]
    constructor
    · rintro (hx | hx)
      · cases h.symm.trans hx
      · obtain ⟨hsign, rfl, rfl⟩ := UnpackedFloat.finite.inj (h.symm.trans hx)
        exact ⟨hsign, h2, rfl⟩
    · rintro ⟨hsign, -, rfl⟩
      exact .finite (hsign ▸ h)

/-- What is a number of seconds is a number, and its sign is a positive one. -/
theorem IsSeconds.isNumber {x : Float} {q : ℚ} (h : IsSeconds x q) : x.isNaN = false ∧ hasNegativeSign x = false := by
  obtain ⟨hsign, hfield, -⟩ := isSeconds_iff.mp h
  refine ⟨?_, (hasNegativeSign_eq_false_iff x).mpr hsign⟩
  rw [← Bool.not_eq_true, isNaN_iff]
  omega

theorem stepsPerOne_pos : 0 < stepsPerOne := by
  rw [stepsPerOne, Nat.one_shiftLeft]
  exact Nat.two_pow_pos 1074

theorem div_stepsPerOne_lt_iff (steps : ℕ) :
    (steps : ℚ) / stepsPerOne < 2 ^ 64 ↔ ¬ secondsLimit * stepsPerOne ≤ steps := by
  have hlimit : (secondsLimit : ℚ) = 2 ^ 64 := by norm_num [secondsLimit]
  rw [div_lt_iff₀ (Nat.cast_pos.mpr stepsPerOne_pos), ← hlimit, not_le, ← Nat.cast_mul, Nat.cast_lt]

/-- A number with a positive sign is counted just if it is below `2 ^ 64`, as the nearest number of nanoseconds. -/
theorem Duration.ofFloat?_eq_some_iff {x : Float} {d : Duration} (hnan : x.isNaN = false)
    (hsign : hasNegativeSign x = false) :
    Duration.ofFloat? x = some d ↔ ∃ q, IsSeconds x q ∧ q < 2 ^ 64 ∧ d.IsNearest q := by
  rw [ofFloat?_eq hnan hsign]
  by_cases hlong : secondsLimit * stepsPerOne ≤ doubleSteps x
  · rw [if_pos hlong]
    refine iff_of_false nofun ?_
    rintro ⟨q, hq, hbelow, -⟩
    obtain ⟨-, -, rfl⟩ := isSeconds_iff.mp hq
    exact (div_stepsPerOne_lt_iff _).mp hbelow hlong
  · have hfield : doubleField x < 1087 := Nat.lt_of_not_le (mt (limit_le_steps_iff x).mpr hlong)
    have hvalue (q : ℚ) : IsSeconds x q ↔ q = doubleSteps x / stepsPerOne :=
      isSeconds_iff.trans
        ⟨fun h => h.2.2, fun h => ⟨(hasNegativeSign_eq_false_iff x).mp hsign, by omega, h⟩⟩
    have hnanos : (doubleSteps x : ℚ) / stepsPerOne * 1000000000 =
        (doubleSteps x * nanosPerSecond : ℕ) / stepsPerOne := by
      rw [div_mul_eq_mul_div, Nat.cast_mul, nanosPerSecond, Nat.cast_ofNat]
    obtain ⟨nanos⟩ := d
    rw [if_neg hlong]
    simp only [hvalue, exists_eq_left, isNearest_iff stepsPerOne_pos hnanos]
    rw [and_iff_right ((div_stepsPerOne_lt_iff _).mpr hlong), Option.some.injEq, Duration.mk.injEq]

end ProgressiveFrame
