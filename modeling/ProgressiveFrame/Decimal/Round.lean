/-!
# Rounding a quotient

The natural number nearest to a quotient; of two that are equally near, the even one.
-/

namespace ProgressiveFrame

/-- The natural number nearest to `num / den`, the even one of two. -/
def roundDiv (num den : Nat) : Nat :=
  let q := num / den
  let twice := 2 * (num % den)
  if den < twice then q + 1
  else if twice = den then q + q % 2
  else q

end ProgressiveFrame
