import ProgressiveFrame.Scalar

/-!
# Single precision numbers

A number is its 32 bits, so that two different not-a-number patterns stay different when they
are stored and dumped. Arithmetic goes through the machine's single precision operations; what
these leave open is fixed here:

* an operand that is not a number is passed on with its quiet bit set (`Binary32.quiet`), the
  first operand before the second;
* an invalid operation on numbers gives `Binary32.invalid`.

`Binary32.trunc` and `Binary32.abs` act on the bits alone.
-/

namespace ProgressiveFrame

/-- A single precision number, as its IEEE 754 bit pattern. -/
structure Binary32 where
  /-- Sign, exponent and fraction, most significant first. -/
  bits : UInt32
deriving DecidableEq, Inhabited

namespace Binary32

/-- The machine number with these bits. -/
def toFloat32 (x : Binary32) : Float32 := Float32.ofBits x.bits

/-- The bits of a machine number. -/
def ofFloat32 (f : Float32) : Binary32 := ⟨f.toBits⟩

/-- The bits without the sign. -/
def magnitude (x : Binary32) : UInt32 := x.bits &&& 0x7fffffff

/-- Whether the sign bit is set. -/
def isNegative (x : Binary32) : Bool := x.bits &&& 0x80000000 != 0

/-- Whether the pattern is not a number: all exponent bits set and a fraction that is not zero. -/
def isNaN (x : Binary32) : Bool := 0x7f800000 < x.magnitude

/-- The same pattern with the quiet bit set. -/
def quiet (x : Binary32) : Binary32 := ⟨x.bits ||| 0x00400000⟩

/-- The answer of an invalid operation such as `0 / 0`. -/
def invalid : Binary32 := ⟨0xffc00000⟩

/-- The magnitude with a positive sign. -/
def abs (x : Binary32) : Binary32 := ⟨x.magnitude⟩

/-- A machine operation on two numbers, with the rules for patterns that are not numbers. -/
def lift₂ (op : Float32 → Float32 → Float32) (x y : Binary32) : Binary32 :=
  if x.isNaN then x.quiet
  else if y.isNaN then y.quiet
  else
    let r := ofFloat32 (op x.toFloat32 y.toFloat32)
    if r.isNaN then invalid else r

/-- The single precision number nearest to a natural number. -/
protected def ofNat (n : Nat) : Binary32 := ofFloat32 (Float32.ofNat n)

instance : Scalar Binary32 where
  add := lift₂ (· + ·)
  sub := lift₂ (· - ·)
  mul := lift₂ (· * ·)
  div := lift₂ (· / ·)
  ofNat := Binary32.ofNat
  lt x y := decide (x.toFloat32 < y.toFloat32)
  le x y := decide (x.toFloat32 ≤ y.toFloat32)

/-- Positive zero. -/
def zero : Binary32 := ⟨0⟩

/-- One. -/
def one : Binary32 := ⟨0x3f800000⟩

/-- The whole part, of the sign of the number. The fraction bits worth less than one are cleared. -/
def trunc (x : Binary32) : Binary32 :=
  let exponent := x.magnitude >>> 23
  if exponent < 127 then ⟨x.bits &&& 0x80000000⟩
  else if 150 ≤ exponent then x
  else
    let fractionBits := 150 - exponent
    ⟨(x.bits >>> fractionBits) <<< fractionBits⟩

/-- The power `x ^ y`. -/
protected def pow (x y : Binary32) : Binary32 := ofFloat32 (x.toFloat32.pow y.toFloat32)

/-- The whole part as a byte: 0 for what is below or not a number, 255 for what is above. -/
def toUInt8 (x : Binary32) : UInt8 := x.toFloat32.toUInt8

/-- The number whose value is a byte. -/
def ofUInt8 (b : UInt8) : Binary32 := Binary32.ofNat b.toNat

/-- The bytes of the pattern, least significant first. -/
def toBytes (x : Binary32) : List UInt8 :=
  [x.bits.toUInt8, (x.bits >>> 8).toUInt8, (x.bits >>> 16).toUInt8, (x.bits >>> 24).toUInt8]

/-- The number whose bytes are these, least significant first. -/
def ofBytes (b0 b1 b2 b3 : UInt8) : Binary32 :=
  ⟨b0.toUInt32 ||| b1.toUInt32 <<< 8 ||| b2.toUInt32 <<< 16 ||| b3.toUInt32 <<< 24⟩

end Binary32

end ProgressiveFrame
