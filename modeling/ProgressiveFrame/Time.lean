import ProgressiveFrame.Scalar

/-!
# Time

Lengths of time and points in time, both counted in nanoseconds. A difference of two points is
never negative.
-/

namespace ProgressiveFrame

/-- The number of nanoseconds in a second. -/
def nanosPerSecond : Nat := 1000000000

/-- A length of time. -/
structure Duration where
  nanos : Nat
deriving DecidableEq, Inhabited

namespace Duration

/-- A number of whole seconds. -/
def ofSeconds (n : Nat) : Duration := ⟨n * nanosPerSecond⟩

/-- The whole seconds. -/
def wholeSeconds (d : Duration) : Nat := d.nanos / nanosPerSecond

/-- The nanoseconds beyond the whole seconds. -/
def restNanos (d : Duration) : Nat := d.nanos % nanosPerSecond

/-- The length in seconds: whole seconds and the rest are converted one by one, then added. -/
def seconds {α : Type} [Scalar α] (d : Duration) : α :=
  Scalar.ofNat d.wholeSeconds + Scalar.ofNat d.restNanos / Scalar.ofNat nanosPerSecond

theorem wholeSeconds_add_restNanos (d : Duration) : d.wholeSeconds * nanosPerSecond + d.restNanos = d.nanos := by
  simp only [wholeSeconds, restNanos, Nat.div_add_mod']

end Duration

/-- A point in time, counted from an arbitrary start. -/
structure Instant where
  nanos : Nat
deriving DecidableEq, Inhabited

namespace Instant

/-- The time from `earlier` to `now`, zero when `earlier` is the later one. -/
def since (now earlier : Instant) : Duration := ⟨now.nanos - earlier.nanos⟩

/-- The point in time after a length of time. -/
def after (t : Instant) (d : Duration) : Instant := ⟨t.nanos + d.nanos⟩

end Instant

end ProgressiveFrame
