import Mathlib.Data.List.Basic
import ProgressiveFrame.Schedule.Basic

/-!
# A reset forgets

A reset leaves one trace in the memory of the pacing, the end of the latest run. Nothing is compared with it as long
as there are no costs, and the run that brings the next cost brings its own end.

* `PacingCall`, `DenoiseScheduler.afterAll`: what can be asked of the pacing, in any order, and the memory after it.
* `DenoiseScheduler.report`: all that a caller sees of a run of calls.
* `DenoiseScheduler.Alike`: two memories that differ at most in the end of a run without a cost. Every call keeps this
  (`Alike.after`) and is answered alike (`Alike.answer?`).
* `DenoiseScheduler.report_reset`: from a reset on the pacing is as good as new.
-/

namespace ProgressiveFrame

/-- What can be asked of the pacing. -/
inductive PacingCall (α : Type) where
  /-- A run is about to be decided on. -/
  | start (latency : α) (now : Instant)
  /-- May a run begin? -/
  | ask (now : Instant)
  | finish (now : Instant)
  | abandon
  | reset

/-- The figures that the pacing gives of itself. -/
structure PacingFigures (α : Type) where
  minInterval : α
  meanCost : α
  meanLatency : α
deriving DecidableEq

namespace DenoiseScheduler

variable {α : Type}

/-- The memories differ at most in the end of a run without a cost. -/
structure Alike (s t : DenoiseScheduler α) : Prop where
  latency : s.latency = t.latency
  cost : s.cost = t.cost
  minInterval : s.minInterval = t.minInterval
  evaluation : s.evaluation = t.evaluation
  startedAt : s.startedAt = t.startedAt
  /-- With costs to compare with, the end of the latest run counts. -/
  finishedAt : s.cost.isEmpty = false → s.finishedAt = t.finishedAt

theorem Alike.refl (s : DenoiseScheduler α) : s.Alike s := ⟨rfl, rfl, rfl, rfl, rfl, fun _ => rfl⟩

/-- Memories with costs are alike only if they are the same. -/
theorem Alike.eq_of_cost {s t : DenoiseScheduler α} (h : s.Alike t) (hcost : s.cost.isEmpty = false) : s = t := by
  obtain ⟨hlatency, hcosts, hinterval, hevaluation, hstarted, hfinished⟩ := h
  have hends := hfinished hcost
  cases s
  cases t
  rw [mk.injEq]
  exact ⟨hlatency, hcosts, hinterval, hevaluation, hstarted, hends⟩

variable [Scalar α] {s t : DenoiseScheduler α}

/-! ## Runs of calls -/

/-- The memory after a call. -/
def after (s : DenoiseScheduler α) : PacingCall α → DenoiseScheduler α
  | .start latency now => s.start latency now
  | .ask now => (s.shouldRun now).1
  | .finish now => s.finish now
  | .abandon => s.abandon
  | .reset => s.reset

/-- The memory after a run of calls. -/
def afterAll (s : DenoiseScheduler α) (calls : List (PacingCall α)) : DenoiseScheduler α := calls.foldl after s

/-- The answer to a call, if it is a question. -/
def answer? (s : DenoiseScheduler α) : PacingCall α → Option Bool
  | .ask now => some (s.shouldRun now).2
  | .start .. | .finish _ | .abandon | .reset => none

/-- The figures of the pacing. -/
def figures (s : DenoiseScheduler α) : PacingFigures α := ⟨s.minInterval, s.cost.mean, s.latency.mean⟩

/-- What a caller sees of a run: for each call its answer, and the figures after it. -/
def report (s : DenoiseScheduler α) : List (PacingCall α) → List (Option Bool × PacingFigures α)
  | [] => []
  | call :: calls => (s.answer? call, (s.after call).figures) :: (s.after call).report calls

/-- A decision leaves the latencies as they are. -/
@[simp] theorem latency_shouldRun (s : DenoiseScheduler α) (now : Instant) :
    (s.shouldRun now).1.latency = s.latency := by
  simp only [DenoiseScheduler.shouldRun, apply_ite Prod.fst, apply_ite DenoiseScheduler.latency]
  split
  · rfl
  · split
    · rfl
    · simp only [apply_ite Prod.fst, apply_ite DenoiseScheduler.latency, ite_self]

/-- A call leaves the windows as wide as they are. -/
theorem capacity_after (s : DenoiseScheduler α) (call : PacingCall α) :
    (s.after call).latency.capacity = s.latency.capacity ∧ (s.after call).cost.capacity = s.cost.capacity := by
  cases call with
  | start latency now => exact ⟨rfl, rfl⟩
  | ask now => simp only [after, latency_shouldRun, cost_shouldRun, and_self]
  | finish now =>
    simp only [after, DenoiseScheduler.finish]
    split <;> exact ⟨rfl, rfl⟩
  | abandon => exact ⟨rfl, rfl⟩
  | reset => exact ⟨rfl, rfl⟩

theorem capacity_afterAll (s : DenoiseScheduler α) (calls : List (PacingCall α)) :
    (s.afterAll calls).latency.capacity = s.latency.capacity ∧ (s.afterAll calls).cost.capacity = s.cost.capacity := by
  induction calls generalizing s with
  | nil => exact ⟨rfl, rfl⟩
  | cons call calls ih =>
    obtain ⟨hlatency, hcost⟩ := s.capacity_after call
    exact ⟨(ih _).1.trans hlatency, (ih _).2.trans hcost⟩

/-! ## What a caller sees -/

/-- A question is answered alike, and leaves the memories alike. -/
theorem Alike.shouldRun (h : s.Alike t) (now : Instant) :
    (s.shouldRun now).1.Alike (t.shouldRun now).1 ∧ (s.shouldRun now).2 = (t.shouldRun now).2 := by
  cases hcost : s.cost.isEmpty with
  | true =>
    -- Neither memory looks at the end of its latest run.
    rw [shouldRun_of_cost_isEmpty hcost, shouldRun_of_cost_isEmpty (h.cost ▸ hcost)]
    exact ⟨h, rfl⟩
  | false =>
    obtain rfl := h.eq_of_cost hcost
    exact ⟨.refl _, rfl⟩

/-- The end of a run that counts is remembered together with its cost. -/
theorem Alike.finish (h : s.Alike t) (now : Instant) : (s.finish now).Alike (t.finish now) := by
  simp only [DenoiseScheduler.finish, h.startedAt]
  cases t.startedAt with
  | none => exact h
  | some started => exact ⟨h.latency, by rw [h.cost], h.minInterval, h.evaluation, rfl, fun _ => rfl⟩

theorem Alike.after (h : s.Alike t) (call : PacingCall α) : (s.after call).Alike (t.after call) := by
  cases call with
  | start latency now => exact { h with latency := congrArg (·.push latency) h.latency, startedAt := rfl }
  | ask now => exact (h.shouldRun now).1
  | finish now => exact h.finish now
  | abandon => exact { h with startedAt := rfl }
  | reset => exact ⟨congrArg RollingWindow.clear h.latency, congrArg RollingWindow.clear h.cost, rfl, rfl, rfl, nofun⟩

theorem Alike.answer? (h : s.Alike t) (call : PacingCall α) : s.answer? call = t.answer? call := by
  cases call with
  | ask now => exact congrArg some (h.shouldRun now).2
  | start latency now => rfl
  | finish now => rfl
  | abandon => rfl
  | reset => rfl

theorem Alike.figures_eq (h : s.Alike t) : s.figures = t.figures := by
  rw [figures, figures, h.minInterval, h.cost, h.latency]

theorem Alike.report_eq (h : s.Alike t) (calls : List (PacingCall α)) : s.report calls = t.report calls := by
  induction calls generalizing s t with
  | nil => rfl
  | cons call calls ih => rw [report, report, h.answer? call, (h.after call).figures_eq, ih (h.after call)]

/-- After a reset, a memory whose windows are as wide as those of a new one is as good as new. -/
theorem alike_reset {history : Nat} (hlatency : s.latency.capacity = max history 1)
    (hcost : s.cost.capacity = max history 1) : s.reset.Alike (new history) where
  latency := congrArg (RollingWindow.mk · []) hlatency
  cost := congrArg (RollingWindow.mk · []) hcost
  minInterval := rfl
  evaluation := rfl
  startedAt := rfl
  finishedAt := nofun

/-- A reset makes the pacing as good as new. Take any run of calls that ends with a reset. Whatever is asked from then
on, all answers and all figures are those of a new pacing with windows of the same width. -/
theorem report_reset (history : Nat) (past later : List (PacingCall α)) :
    let s := (new history).afterAll (past ++ [.reset])
    s.figures = (new history : DenoiseScheduler α).figures ∧ s.report later = (new history).report later := by
  intro s
  obtain ⟨hlatency, hcost⟩ := (new history : DenoiseScheduler α).capacity_afterAll past
  have hreset : s = ((new history).afterAll past).reset := List.foldl_concat ..
  have halike : s.Alike (new history) := hreset ▸ alike_reset hlatency hcost
  exact ⟨halike.figures_eq, halike.report_eq later⟩

/-- The end of a run outlives the reset, so the memory itself is not a new one. -/
example : ((new 2 : DenoiseScheduler Rat).afterAll [.start 0 ⟨0⟩, .finish ⟨5⟩, .reset]).finishedAt = some ⟨5⟩ := by
  decide

end DenoiseScheduler

end ProgressiveFrame
