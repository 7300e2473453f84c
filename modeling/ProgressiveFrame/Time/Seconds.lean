import ProgressiveFrame.Decimal.Round
import ProgressiveFrame.Time

/-!
# Lengths of time from seconds

A length of time that is given as a number of seconds is counted in nanoseconds: the exact value is
rounded to the nearest one, and to the even one of two. A length has to stay below `2 ^ 64` seconds.
-/

namespace ProgressiveFrame

/-- Why something is not a length of time. -/
inductive DurationFault where
  /-- It does not write one, or one too long to be counted. -/
  | refused
  /-- It is negative or not a number. -/
  | negative
  /-- The count of seconds leaves its word in a place where nothing guards against it, which ends the program. -/
  | overlong
deriving DecidableEq

/-- The number of seconds that can be counted. -/
def secondsLimit : Nat := 0x10000000000000000

/-- The number of steps of `2 ^ (-1074)` in one. Every finite double is a whole number of steps. -/
def stepsPerOne : Nat := 1 <<< 1074

/-- The significand of a finite double, in units of `2 ^ (doubleExponent x - 1074)`. -/
def doubleSignificand (x : Float) : Nat :=
  let fraction := (x.toBits &&& 0xfffffffffffff).toNat
  if (x.toBits >>> 52) &&& 0x7ff = 0 then fraction else fraction + 0x10000000000000

/-- The exponent of a double above the least one. -/
def doubleExponent (x : Float) : Nat := ((x.toBits >>> 52) &&& 0x7ff).toNat - 1

/-- The number of steps that a finite double is, its sign put aside. -/
def doubleSteps (x : Float) : Nat := doubleSignificand x <<< doubleExponent x

/-- Whether a double has the sign of the negative numbers, as one zero does. -/
def hasNegativeSign (x : Float) : Bool := x.toBits >>> 63 != 0

/-- The length of a number of seconds. There is none of what is no number, is below zero or is too much to be counted,
where the program ends. -/
def Duration.ofFloat? (x : Float) : Option Duration :=
  let steps := doubleSteps x
  if x.isNaN || (hasNegativeSign x && steps != 0) || secondsLimit * stepsPerOne ≤ steps then none
  else some ⟨roundDiv (steps * nanosPerSecond) stepsPerOne⟩

end ProgressiveFrame
