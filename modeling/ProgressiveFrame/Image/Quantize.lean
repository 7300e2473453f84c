import ProgressiveFrame.Binary32

/-!
# Eight-bit codes

A linear value and the byte that shows it on a screen of gamma 2.2. Both are found by a power of the other, and no two
platforms need agree on its last bits. So codes are defined for any way to find powers (`Powers`); a program that runs
has that of its machine.
-/

namespace ProgressiveFrame

/-- A way to find powers. -/
class Powers where
  /-- The power `x ^ y`. -/
  power (x y : Binary32) : Binary32

/-- The way of the machine. -/
instance Powers.machine : Powers := ⟨Binary32.pow⟩

/-- The exponent of the screen. -/
def gamma : Binary32 := Scalar.ratio 22 10

/-- The byte nearest to a linear value: 0 for zero and below, 255 above one. -/
def gammaEncode [Powers] (v : Binary32) : UInt8 :=
  if Scalar.le v .zero then 0
  else (Powers.power v (.one / gamma) * Scalar.ofNat 255 + Scalar.ratio 1 2).toUInt8

/-- The linear value of a byte. -/
def gammaDecode [Powers] (code : UInt8) : Binary32 := Powers.power (Binary32.ofUInt8 code / Scalar.ofNat 255) gamma

end ProgressiveFrame
