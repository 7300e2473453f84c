import ProgressiveFrame.Scalar

/-!
# Rolling windows

The newest values of a series, up to a fixed number of them, and their mean.
-/

namespace ProgressiveFrame

/-- The newest values of a series, the newest one first. -/
structure RollingWindow (α : Type) where
  capacity : Nat
  values : List α
deriving DecidableEq, Inhabited

namespace RollingWindow

variable {α : Type}

/-- The empty window, which has room for at least one value. -/
def empty (capacity : Nat) : RollingWindow α := ⟨max capacity 1, []⟩

/-- Takes a value in. The oldest one leaves a full window. -/
def push (w : RollingWindow α) (v : α) : RollingWindow α := { w with values := (v :: w.values).take w.capacity }

/-- Forgets all values. -/
def clear (w : RollingWindow α) : RollingWindow α := { w with values := [] }

/-- Whether there is no value. -/
def isEmpty (w : RollingWindow α) : Bool := w.values.isEmpty

/-- The number of values. -/
def size (w : RollingWindow α) : Nat := w.values.length

/-- The mean of the values, zero when there is none. -/
def mean [Scalar α] (w : RollingWindow α) : α := Scalar.mean w.values

end RollingWindow

end ProgressiveFrame
