import ProgressiveFrame.Binary32
import ProgressiveFrame.Decimal.Round
import ProgressiveFrame.Text.Numeral

/-!
# Decimals with a fixed number of places

The exact value of a single precision number, rounded to a fixed number of decimal places; a value
halfway between two decimals goes to the even one. The sign of zero is written, and so is that of
a number that rounds to zero.

* `Binary32.fixed`: the text of a number.
-/

namespace ProgressiveFrame

namespace Binary32

/-- Whether the number is infinite. -/
def isInfinite (x : Binary32) : Bool := x.magnitude == 0x7f800000

/-- The fraction of a finite number with its leading bit, a multiple of `2 ^ (exponent - 149)`. -/
def significand (x : Binary32) : Nat :=
  let fraction := (x.magnitude &&& 0x7fffff).toNat
  if x.magnitude >>> 23 = 0 then fraction else fraction + 0x800000

/-- The exponent of a finite number above the least one. -/
def exponent (x : Binary32) : Nat := (x.magnitude >>> 23).toNat - 1

/-- The magnitude of a finite number in units of `10 ^ -places`, rounded. -/
def scaledMagnitude (x : Binary32) (places : Nat) : Nat :=
  roundDiv ((x.significand <<< x.exponent) * Nat.pow 10 places) (1 <<< 149)

/-- The decimal digits of `n` units of `10 ^ -places`. -/
def fixedDigits (n places : Nat) : List Char :=
  if places = 0 then Text.decimal n
  else
    let unit := Nat.pow 10 places
    let fraction := Text.decimal (n % unit)
    Text.decimal (n / unit) ++ ['.'] ++ List.replicate (places - fraction.length) '0' ++ fraction

/-- The text of a number with `places` decimal places. -/
def fixed (x : Binary32) (places : Nat) : List Char :=
  if x.isNaN then ['N', 'a', 'N']
  else
    let sign := if x.isNegative then ['-'] else []
    if x.isInfinite then sign ++ ['i', 'n', 'f']
    else sign ++ fixedDigits (x.scaledMagnitude places) places

end Binary32

end ProgressiveFrame
