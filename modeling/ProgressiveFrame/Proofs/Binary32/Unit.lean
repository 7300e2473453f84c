import ProgressiveFrame.Blend
import ProgressiveFrame.Proofs.Binary32.Natural

/-!
# One and zero in single precision

A number times one, plus zero, is the number. Two things are lost: a zero its sign, and a pattern that is not a number
its being a signalling one.

* `roundWithAccuracy_mul_two_pow`: rounding cuts off again the zeros that a product with a power of two has at its end.
* `Binary32.settled`: what is left of a pattern.
* `Binary32.mul_one_add_zero`: the sums that a blend makes where one side has no rays.
-/

namespace ProgressiveFrame.Binary32

open Float.Model UnpackedFloat

/-! ## Rounding -/

theorem log2_mul_two_pow {m : Nat} (hm : 0 < m) (k : Nat) : (m * 2 ^ k).log2 = m.log2 + k := by
  induction k with
  | zero => rw [Nat.pow_zero, Nat.mul_one, Nat.add_zero]
  | succ k ih =>
    have hpos : 0 < m * 2 ^ k := Nat.mul_pos hm (Nat.two_pow_pos k)
    rw [Nat.pow_succ, ← Nat.mul_assoc, Nat.mul_comm, Nat.log2_two_mul (Nat.ne_of_gt hpos), ih, Nat.add_assoc]

/-- The zeros at the end of a product with a power of two are shifted out, and no bit is lost with them. -/
theorem shiftRight_mul_two_pow (m k : Nat) :
    ExtendedMantissa.ofMantissaAndAccuracy (m * 2 ^ k) .exact >>> k = ⟨m, false, false⟩ := by
  change k.repeat ExtendedMantissa.shiftRightOne ⟨m * 2 ^ k, false, false⟩ = ⟨m, false, false⟩
  induction k generalizing m with
  | zero => rw [Nat.pow_zero, Nat.mul_one]; rfl
  | succ k ih =>
    have heven : m * 2 ^ (k + 1) = m * 2 * 2 ^ k := by rw [Nat.pow_succ, Nat.mul_assoc, Nat.mul_comm 2]
    rw [Nat.repeat, heven, ih]
    simp [ExtendedMantissa.shiftRightOne]

/-- A significand that is as long as the format asks for is what rounding leaves of its product with a power of two. -/
theorem roundWithAccuracy_mul_two_pow {spec : Format} {m : Nat} {e : Int} (s : Sign) (hm : 0 < m)
    (he : spec.targetExponent (totalExponent m e) = e) (k : Nat) :
    roundWithAccuracy spec s (m * 2 ^ k) (e - k) .exact = .finite s m e hm := by
  have htotal : totalExponent (m * 2 ^ k) (e - k) = totalExponent m e := by
    simp only [totalExponent, log2_mul_two_pow hm]
    omega
  have hfirst : shiftToTargetExponent spec (m * 2 ^ k) (e - k) .exact = (⟨m, false, false⟩, e) := by
    have hamount : (e - (e - k)).toNat = k := by omega
    have hback : e - k + (k : Int) = e := by omega
    rw [shiftToTargetExponent, htotal, he, shiftToExponent, hamount, shiftRight_mul_two_pow, hback]
  have hsecond : shiftToTargetExponent spec m e .exact = (⟨m, false, false⟩, e) := by
    rw [shiftToTargetExponent, he, shiftToExponent, Int.sub_self]
    simp only [Int.toNat_zero, Int.natCast_zero, Int.add_zero]
    rfl
  have hrounded : (⟨m, false, false⟩ : ExtendedMantissa).roundedMantissa = m := rfl
  simp only [roundWithAccuracy, hfirst, hrounded, hsecond]
  exact dif_neg (Nat.ne_of_gt hm)

/-- The significand of a pattern is as long as the format asks for. -/
theorem targetExponent_of_unpack {b : BitVec 32} {s : Sign} {m : Nat} {e : Int} {hm : 0 < m}
    (h : UnpackedFloat.unpack .binary32 b = .finite s m e hm) :
    Format.binary32.targetExponent (totalExponent m e) = e := by
  have hbits : Format.binary32.mantissaBits = 24 := rfl
  have hleast : Format.binary32.minExponent = -149 := rfl
  have hbias : Format.binary32.exponentBias = 127 := rfl
  have hlt : (@unpackMantissa .binary32 b).toNat < 2 ^ 23 := (@unpackMantissa .binary32 b).isLt
  unfold UnpackedFloat.unpack at h
  simp only [] at h
  split at h
  · split at h <;> cases h
  · split at h
    · rename_i hzero
      split at h
      · cases h
      · cases h
        have hlog : (@unpackMantissa .binary32 b).toNat.log2 < 23 := (Nat.log2_lt (Nat.ne_of_gt hm)).mpr hlt
        have hexponent : (@unpackExponent .binary32 b).toNat = 0 := by rw [hzero]; rfl
        rw [Format.targetExponent, totalExponent, hbits, hleast, hbias, hexponent]
        omega
    · rename_i hzero
      cases h
      have hexponent : (@unpackExponent .binary32 b).toNat ≠ 0 := fun h0 => hzero (BitVec.eq_of_toNat_eq h0)
      rw [Format.targetExponent, totalExponent, hbits, hleast, hbias, log2_one_append]
      omega

/-! ## One and zero -/

variable {x : Binary32}

/-- What is left of a pattern in a sum with zero. -/
def settled (x : Binary32) : Binary32 :=
  if x.isNaN then x.quiet else if x.magnitude = 0 then zero else x

theorem quiet_quiet (x : Binary32) : x.quiet.quiet = x.quiet := by
  rw [quiet, quiet, UInt32.or_assoc, UInt32.or_self]

/-- A pattern that is not a number is none when it is quiet. -/
theorem isNaN_quiet (h : x.isNaN = true) : x.quiet.isNaN = true := by
  have hlt : (0x7f800000 : UInt32).toNat < x.magnitude.toNat := UInt32.lt_iff_toNat_lt.mp (of_decide_eq_true h)
  have hle : x.magnitude.toNat ≤ x.quiet.magnitude.toNat := by
    rw [magnitude, magnitude, quiet, UInt32.toNat_and, UInt32.toNat_and, UInt32.toNat_or, Nat.and_or_distrib_right]
    exact Nat.left_le_or
  exact decide_eq_true (UInt32.lt_iff_toNat_lt.mpr (hlt.trans_le hle))

/-- The patterns that the machine sees as a zero are those without exponent and fraction. -/
theorem unpack_eq_zero_iff (x : Binary32) :
    (∃ s, UnpackedFloat.unpack .binary32 x.bits.toBitVec = .zero s) ↔ x.magnitude = 0 := by
  have hmagnitude : x.magnitude = 0 ↔
      @unpackExponent .binary32 x.bits.toBitVec = 0#8 ∧ @unpackMantissa .binary32 x.bits.toBitVec = 0#23 := by
    rw [← UInt32.toNat_inj, ← BitVec.toNat_inj, ← BitVec.toNat_inj, toNat_magnitude, toNat_unpackExponent,
      toNat_unpackMantissa, UInt32.toNat_toBitVec]
    change x.bits.toNat % 2 ^ 31 = 0 ↔ x.bits.toNat / 2 ^ 23 % 2 ^ 8 = 0 ∧ x.bits.toNat % 2 ^ 23 = 0
    omega
  rw [hmagnitude]
  unfold UnpackedFloat.unpack
  simp only []
  constructor
  · rintro ⟨s, hs⟩
    split at hs
    · split at hs <;> cases hs
    · split at hs
      · split at hs
        · rename_i hexponent hmantissa
          exact ⟨hexponent, hmantissa⟩
        · cases hs
      · cases hs
  · rintro ⟨hexponent, hmantissa⟩
    exact ⟨_, by rw [if_neg (by rw [hexponent]; decide), if_pos hexponent, dif_pos hmantissa]⟩

theorem ofFloat32_mul (x y : Binary32) : ofFloat32 (x.toFloat32 * y.toFloat32) =
    ⟨UInt32.ofBitVec (UnpackedFloat.pack .binary32
      (UnpackedFloat.mul .binary32 x.toFloat32.toModel.unpack y.toFloat32.toModel.unpack))⟩ := rfl

theorem ofFloat32_add (x y : Binary32) : ofFloat32 (x.toFloat32 + y.toFloat32) =
    ⟨UInt32.ofBitVec (UnpackedFloat.pack .binary32
      (UnpackedFloat.add .binary32 x.toFloat32.toModel.unpack y.toFloat32.toModel.unpack))⟩ := rfl

/-- A number times one is the number, bit for bit. -/
theorem mul_one_of_number (h : x.isNaN = false) : x * one = x := by
  have hone : one.toFloat32.toModel.unpack = .finite .positive (1 * 2 ^ 23) (-23) (by decide) := rfl
  have hmul : UnpackedFloat.mul .binary32 (UnpackedFloat.unpack .binary32 x.bits.toBitVec)
      (.finite .positive (1 * 2 ^ 23) (-23) (by decide)) = UnpackedFloat.unpack .binary32 x.bits.toBitVec := by
    have hsign (s : Sign) : s * .positive = s := by cases s <;> rfl
    cases hu : UnpackedFloat.unpack .binary32 x.bits.toBitVec with
    | notANumber => rfl
    | infinity s => exact congrArg _ (hsign s)
    | zero s => exact congrArg _ (hsign s)
    | finite s m e hm =>
      have hround := roundWithAccuracy_mul_two_pow s hm (targetExponent_of_unpack hu) 23
      rw [UnpackedFloat.mul, hsign, Nat.one_mul]
      exact hround
  have hproduct : ofFloat32 (x.toFloat32 * one.toFloat32) = x := by
    rw [ofFloat32_mul, unpack_toModel h, hone, hmul, pack_unpack (unpackMantissa_eq_zero h)]
  have hnan : one.isNaN = false := by decide
  change lift₂ (· * ·) x one = x
  simp only [lift₂, h, hnan, hproduct, Bool.false_eq_true, if_false]

/-- What the machine leaves of a number in a sum with zero. -/
def plusZero : UnpackedFloat → UnpackedFloat
  | .zero _ => .zero .positive
  | other => other

theorem add_unpacked_zero (u : UnpackedFloat) : UnpackedFloat.add .binary32 u (.zero .positive) = plusZero u ∧
    UnpackedFloat.add .binary32 (.zero .positive) u = plusZero u := by
  cases u with
  | notANumber => exact ⟨rfl, rfl⟩
  | infinity s => exact ⟨rfl, rfl⟩
  | zero s => cases s <;> exact ⟨rfl, rfl⟩
  | finite s m e hm => exact ⟨rfl, rfl⟩

theorem pack_plusZero (h : x.isNaN = false) : Binary32.mk (UInt32.ofBitVec (UnpackedFloat.pack .binary32
    (plusZero (UnpackedFloat.unpack .binary32 x.bits.toBitVec)))) = x.settled := by
  rw [settled, h, if_neg Bool.false_ne_true]
  by_cases hzero : x.magnitude = 0
  · obtain ⟨s, hs⟩ := (unpack_eq_zero_iff x).mpr hzero
    rw [if_pos hzero, hs]
    rfl
  · have hsame : plusZero (UnpackedFloat.unpack .binary32 x.bits.toBitVec) =
        UnpackedFloat.unpack .binary32 x.bits.toBitVec := by
      unfold plusZero
      split
      · rename_i s hs
        exact absurd ((unpack_eq_zero_iff x).mp ⟨s, hs⟩) hzero
      · rfl
    rw [if_neg hzero, hsame, pack_unpack (unpackMantissa_eq_zero h)]

/-- A sum with zero, on either side. -/
theorem add_zero_eq_settled (x : Binary32) : x + zero = x.settled ∧ zero + x = x.settled := by
  have hnumber : zero.isNaN = false := by decide
  change lift₂ (· + ·) x zero = x.settled ∧ lift₂ (· + ·) zero x = x.settled
  cases hnan : x.isNaN with
  | true => simp [lift₂, settled, hnan, hnumber]
  | false =>
    have hzero : zero.toFloat32.toModel.unpack = .zero .positive := rfl
    obtain ⟨hright, hleft⟩ := add_unpacked_zero (UnpackedFloat.unpack .binary32 x.bits.toBitVec)
    have hxz : ofFloat32 (x.toFloat32 + zero.toFloat32) = x.settled := by
      rw [ofFloat32_add, unpack_toModel hnan, hzero, hright, pack_plusZero hnan]
    have hzx : ofFloat32 (zero.toFloat32 + x.toFloat32) = x.settled := by
      rw [ofFloat32_add, unpack_toModel hnan, hzero, hleft, pack_plusZero hnan]
    have hsettled : x.settled.isNaN = false := by
      rw [settled, hnan, if_neg Bool.false_ne_true]
      split
      · exact hnumber
      · exact hnan
    simp only [lift₂, hnan, hnumber, hxz, hzx, hsettled, Bool.false_eq_true, if_false, and_self]

/-- A pattern times one, with zero added on either side. -/
theorem mul_one_add_zero (x : Binary32) : x * one + zero = x.settled ∧ zero + x * one = x.settled := by
  cases hnan : x.isNaN with
  | false =>
    rw [mul_one_of_number hnan]
    exact add_zero_eq_settled x
  | true =>
    have hproduct : x * one = x.quiet := by
      change lift₂ (· * ·) x one = x.quiet
      rw [lift₂, if_pos hnan]
    have hsettled : x.quiet.settled = x.settled := by
      rw [settled, settled, if_pos hnan, if_pos (isNaN_quiet hnan), quiet_quiet]
    rw [hproduct, ← hsettled]
    exact add_zero_eq_settled x.quiet

/-- One ray and none are one ray, which is all of them. -/
theorem shares_one_zero : shares? one zero = some (one, zero) ∧ shares? zero one = some (zero, one) := by
  decide +kernel

end ProgressiveFrame.Binary32
