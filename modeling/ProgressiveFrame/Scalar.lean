/-!
# Scalars

The arithmetic that blending and pacing need, apart from any one number type: the four
operations, two order tests and the image of the natural numbers. The running program uses
binary floating point; a statement about the exact law uses rational numbers.

* `Scalar.ratio`: a constant such as `9/10`, as one quotient of two exact numbers.
* `Scalar.min`, `Scalar.max`: an operand that compares with nothing loses, and the second of two
  equal operands wins.
* `Scalar.mean`: the mean of a list, zero for the empty list.
-/

namespace ProgressiveFrame

/-- The operations that a number type offers to blending and pacing. -/
class Scalar (α : Type) extends Add α, Sub α, Mul α, Div α where
  /-- The number nearest to a natural number. -/
  ofNat : Nat → α
  /-- Whether the first number is less than the second. -/
  lt : α → α → Bool
  /-- Whether the first number is at most the second. -/
  le : α → α → Bool

namespace Scalar

variable {α : Type} [Scalar α]

/-- The number zero. -/
def zero : α := ofNat 0

/-- The quotient `num / den` of two natural numbers. -/
def ratio (num den : Nat) : α := ofNat num / ofNat den

/-- The lesser operand. The second one wins a tie, which shows in the sign of a zero, and stands in
for a first one that is not a number. -/
def min (a b : α) : α := if le b a || !le a a then b else a

/-- The greater operand, with the rules of `Scalar.min`. -/
def max (a b : α) : α := if le a b || !le a a then b else a

/-- The sum of a list from its first element on. -/
def sum : List α → α
  | [] => zero
  | x :: xs => xs.foldl (· + ·) x

/-- The mean of a list, zero when it is empty. -/
def mean (xs : List α) : α := if xs.isEmpty then zero else sum xs / ofNat xs.length

/-! ## Exact arithmetic -/

instance : Scalar Rat where
  ofNat n := n
  lt x y := decide (x < y)
  le x y := decide (x ≤ y)

@[simp] theorem zero_rat : (zero : Rat) = 0 := rfl

@[simp] theorem lt_rat {x y : Rat} : lt x y = true ↔ x < y := decide_eq_true_iff

end Scalar

end ProgressiveFrame
