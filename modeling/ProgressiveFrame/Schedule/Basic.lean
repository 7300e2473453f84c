import ProgressiveFrame.Schedule.Window
import ProgressiveFrame.Time

/-!
# Pacing of denoise runs

A denoise run costs time, so not every readout is worth one. The scheduler remembers what the
latest runs cost and how late the latest messages were, and allows a run when the previous one
ended longer ago than a run costs and longer ago than a minimal interval. The interval tunes
itself: each allowed run compares `latency + 0.9 * interval` with its value at the allowed run
before and moves the interval by the difference, at most by half.

* `DenoiseScheduler.shouldRun`: the decision, with the interval it leaves behind.
* `DenoiseScheduler.reset`: the histories and the interval start anew; the end of the last run is
  kept and no longer matters, since there is no cost to compare with.
-/

namespace ProgressiveFrame

/-- The memory of the pacing. -/
structure DenoiseScheduler (α : Type) where
  latency : RollingWindow α
  cost : RollingWindow α
  /-- The least time between the end of a run and the next run. -/
  minInterval : α
  /-- The value that the latest tuning compared with, zero before the first one. -/
  evaluation : α
  /-- The beginning of the run that has not ended. -/
  startedAt : Option Instant
  /-- The end of the latest run that has ended. -/
  finishedAt : Option Instant
deriving DecidableEq

namespace DenoiseScheduler

variable {α : Type} [Scalar α]

/-- The scheduler without memory, whose histories hold up to `history` values. -/
def new (history : Nat) : DenoiseScheduler α :=
  ⟨.empty history, .empty history, Scalar.zero, Scalar.zero, none, none⟩

/-- The number of values that histories hold unless told otherwise. -/
def defaultHistory : Nat := 10

/-- A run is about to be decided on, for a message of this latency. -/
def start (s : DenoiseScheduler α) (latency : α) (now : Instant) : DenoiseScheduler α :=
  { s with startedAt := some now, latency := s.latency.push latency }

/-- The interval after a tuning from `previous` to `current`. It grows up to 1.2 times the mean
latency, and shrinks down to the mean cost. -/
def tuned (interval previous current latency cost : α) : α :=
  if Scalar.lt Scalar.zero previous then
    let half := interval * Scalar.ratio 1 2
    if Scalar.lt previous current then
      Scalar.min (interval + Scalar.min (current - previous) half) (latency * Scalar.ratio 12 10)
    else if Scalar.lt current previous then
      Scalar.max (interval - Scalar.min (previous - current) half) cost
    else interval
  else interval

/-- Whether a run may begin now. The first run after a reset always may. -/
def shouldRun (s : DenoiseScheduler α) (now : Instant) : DenoiseScheduler α × Bool :=
  if s.cost.isEmpty then (s, true)
  else match s.finishedAt with
    | none => (s, true)
    | some last =>
      let cost := s.cost.mean
      let elapsed : α := (now.since last).seconds
      if Scalar.le elapsed cost then (s, false)
      else
        let interval := if Scalar.lt s.minInterval cost then cost else s.minInterval
        if Scalar.le elapsed interval then ({ s with minInterval := interval }, false)
        else
          let latency := s.latency.mean
          let current := latency + Scalar.ratio 9 10 * interval
          ({ s with
              minInterval := tuned interval s.evaluation current latency cost
              evaluation := current }, true)

/-- A run has ended. Without a beginning it does not count. -/
def finish (s : DenoiseScheduler α) (now : Instant) : DenoiseScheduler α :=
  match s.startedAt with
  | none => s
  | some started =>
    { s with startedAt := none, cost := s.cost.push (now.since started).seconds, finishedAt := some now }

/-- The run that was begun has come to nothing. -/
def abandon (s : DenoiseScheduler α) : DenoiseScheduler α := { s with startedAt := none }

/-- A new frame begins. -/
def reset (s : DenoiseScheduler α) : DenoiseScheduler α :=
  { s with
    latency := s.latency.clear
    cost := s.cost.clear
    minInterval := Scalar.zero
    evaluation := Scalar.zero
    startedAt := none }

theorem shouldRun_of_cost_isEmpty {s : DenoiseScheduler α} (h : s.cost.isEmpty = true) (now : Instant) :
    s.shouldRun now = (s, true) := by simp [shouldRun, h]

/-- A decision leaves the costs as they are. -/
@[simp] theorem cost_shouldRun (s : DenoiseScheduler α) (now : Instant) : (s.shouldRun now).1.cost = s.cost := by
  simp only [shouldRun, apply_ite Prod.fst, apply_ite DenoiseScheduler.cost]
  split
  · rfl
  · split
    · rfl
    · simp only [apply_ite Prod.fst, apply_ite DenoiseScheduler.cost, ite_self]

end DenoiseScheduler

end ProgressiveFrame
