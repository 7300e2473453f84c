/-!
# Scaling by powers of ten

The value of a decimal `m · 10 ^ e` in double precision, by one rounded conversion of `m` and
multiplications or divisions with rounded powers of ten. The result can differ from the nearest
double in its last bits; it is what a reader that trades exactness for speed gives.
-/

namespace ProgressiveFrame

/-- The double nearest to a power of ten. -/
def powerOfTen (e : Nat) : Float := Float.ofScientific 1 false e

/-- The greatest exponent whose power of ten is finite. -/
def maxPowerOfTen : Nat := 308

/-- Divides by a power of ten, in steps of the greatest finite one. -/
def scaleDown (f : Float) (e : Nat) : Float :=
  if e ≤ maxPowerOfTen then f / powerOfTen e
  else if f == 0 then f
  else scaleDown (f / powerOfTen maxPowerOfTen) (e - maxPowerOfTen)
termination_by e
decreasing_by simp [maxPowerOfTen] at *; omega

/-- The value of `m · 10 ^ e`, none when it is too large. -/
def scaled? (m : Nat) (e : Int) : Option Float :=
  let f := Float.ofNat m
  if e < 0 then some (scaleDown f e.natAbs)
  else if e ≤ maxPowerOfTen then
    let r := f * powerOfTen e.toNat
    if r.isInf then none else some r
  else if f == 0 then some f
  else none

end ProgressiveFrame
