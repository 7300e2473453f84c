import ProgressiveFrame.Error
import ProgressiveFrame.Scalar

/-!
# Blending interleaved buffers

A buffer holds `numChan` values for each pixel and has one ray count for each pixel beside it.
`blend` accumulates a second such buffer into it: value `k` belongs to pixel `k / numChan`, and
each side weighs with its share of the rays of that pixel.
-/

namespace ProgressiveFrame

variable {α : Type} [Scalar α]

/-- A buffer of interleaved values with one ray count for each pixel. -/
structure Weighted (α : Type) where
  values : Array α
  counts : Array α
deriving DecidableEq, Inhabited

/-- The shares of two ray counts in their sum, where it is positive. -/
def shares? (n m : α) : Option (α × α) :=
  let total := n + m
  if Scalar.lt Scalar.zero total then some (n / total, m / total) else none

/-- The sum of two ray counts, zero unless it is positive. -/
def totalCount (n m : α) : α :=
  let total := n + m
  if Scalar.lt Scalar.zero total then total else Scalar.zero

namespace Weighted

/-- Why two buffers cannot be blended, if they cannot. -/
def mismatch? (acc src : Weighted α) (numChan : Nat) : Option FrameError :=
  if src.values.size ≠ acc.values.size then
    some (.dimensionMismatch .mergeBufferLength acc.values.size src.values.size)
  else if acc.counts.size ≠ src.counts.size then
    some (.dimensionMismatch .mergeCountLength acc.counts.size src.counts.size)
  else if acc.counts.size * numChan ≠ acc.values.size then
    some (.dimensionMismatch .mergeCountLength (acc.values.size / max numChan 1) acc.counts.size)
  else none

/-- The ray count of a pixel. -/
def count (w : Weighted α) (pixel : Nat) : α := w.counts.getD pixel Scalar.zero

/-- The accumulated buffer, for buffers that fit. A pixel without rays becomes zero. -/
def blended (acc src : Weighted α) (numChan : Nat) : Weighted α where
  values := acc.values.mapIdx fun k value =>
    match shares? (acc.count (k / numChan)) (src.count (k / numChan)) with
    | some (wa, wb) => value * wa + src.values.getD k Scalar.zero * wb
    | none => Scalar.zero
  counts := acc.counts.mapIdx fun pixel n => totalCount n (src.count pixel)

/-- Accumulates `src` into `acc`, pixel by pixel. -/
def blend (acc src : Weighted α) (numChan : Nat) : Except FrameError (Weighted α) :=
  match acc.mismatch? src numChan with
  | some e => .error e
  | none => .ok (acc.blended src numChan)

@[simp] theorem size_values_blended (acc src : Weighted α) (numChan : Nat) :
    (acc.blended src numChan).values.size = acc.values.size := by simp [blended]

@[simp] theorem size_counts_blended (acc src : Weighted α) (numChan : Nat) :
    (acc.blended src numChan).counts.size = acc.counts.size := by simp [blended]

theorem blend_eq_ok_iff {acc src r : Weighted α} {numChan : Nat} :
    acc.blend src numChan = .ok r ↔ acc.mismatch? src numChan = none ∧ acc.blended src numChan = r := by
  unfold blend; split <;> simp [*]

end Weighted

end ProgressiveFrame
