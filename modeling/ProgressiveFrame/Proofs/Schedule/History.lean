import Mathlib.Algebra.BigOperators.Group.List.Basic
import Mathlib.Algebra.Order.BigOperators.Group.List
import Mathlib.Algebra.Order.Field.Rat
import Mathlib.Data.List.Induction
import Mathlib.Tactic.NormNum
import ProgressiveFrame.Proofs.Schedule.Restart

/-!
# The history behind a decision

What the pacing remembers follows from the calls that were made, in whatever order and at whatever times they came.
Seconds are exact here.

* `PacingHistory.startedAt?`, `runs`, `costs`, `latencies`: what a history says, without following the memory. Only a
  finish that has a beginning to itself ends a run.
* `DenoiseScheduler.Recalls`: the memory is what the history says. Every call keeps this (`Recalls.after`).
* `DenoiseScheduler.Decision`: all that a question can come to.
* `DenoiseScheduler.afterAll_followsHistory`: the costs, the means and the decisions are those of the history.
-/

namespace ProgressiveFrame

/-! ## Exact arithmetic -/

namespace Scalar

theorem sum_rat (xs : List ℚ) : sum xs = xs.sum := by
  cases xs with
  | nil => rfl
  | cons x xs =>
    rw [List.sum_cons]
    exact List.foldl_eq_apply_foldr

theorem mean_rat (xs : List ℚ) : mean xs = xs.sum / xs.length := by
  unfold mean
  cases xs with
  | nil => simp
  | cons x xs => rw [sum_rat]; rfl

theorem ratio_rat (num den : ℕ) : (ratio num den : ℚ) = num / den := rfl

@[simp] theorem le_rat {x y : ℚ} : le x y = true ↔ x ≤ y := decide_eq_true_iff

theorem min_rat (x y : ℚ) : Scalar.min x y = x ⊓ y := by
  by_cases h : y ≤ x
  · rw [Scalar.min, if_pos (by simp [h]), min_eq_right h]
  · rw [Scalar.min, if_neg (by simpa using h), min_eq_left (not_le.mp h).le]

theorem max_rat (x y : ℚ) : Scalar.max x y = x ⊔ y := by
  by_cases h : x ≤ y
  · rw [Scalar.max, if_pos (by simp [h]), max_eq_right h]
  · rw [Scalar.max, if_neg (by simpa using h), max_eq_left (not_le.mp h).le]

end Scalar

/-- The seconds from one point in time to another, fewer than none if that one came before. -/
def Instant.secondsTo (earlier now : Instant) : ℚ := ((now.nanos : ℚ) - earlier.nanos) / nanosPerSecond

theorem Duration.seconds_rat (d : Duration) : (d.seconds : ℚ) = d.nanos / nanosPerSecond := by
  have hpos : (nanosPerSecond : ℚ) ≠ 0 := by norm_num [nanosPerSecond]
  have hparts : (d.wholeSeconds : ℚ) * nanosPerSecond + d.restNanos = d.nanos := by
    exact_mod_cast d.wholeSeconds_add_restNanos
  rw [← hparts, add_div, mul_div_cancel_right₀ _ hpos]
  rfl

/-- A length of time counts the seconds to a later point, and none to an earlier one. -/
theorem Instant.seconds_since (now earlier : Instant) :
    ((now.since earlier).seconds : ℚ) = max 0 (earlier.secondsTo now) := by
  have hpos : (0 : ℚ) < nanosPerSecond := by norm_num [nanosPerSecond]
  rw [Duration.seconds_rat, Instant.since, Instant.secondsTo]
  rcases le_total earlier.nanos now.nanos with h | h
  · have hcast : (earlier.nanos : ℚ) ≤ now.nanos := by exact_mod_cast h
    rw [Nat.cast_sub h, max_eq_right (div_nonneg (sub_nonneg.mpr hcast) hpos.le)]
  · have hcast : (now.nanos : ℚ) ≤ earlier.nanos := by exact_mod_cast h
    rw [Nat.sub_eq_zero_of_le h, max_eq_left (div_nonpos_of_nonpos_of_nonneg (sub_nonpos.mpr hcast) hpos.le)]
    simp

namespace RollingWindow

/-- The window over a series, the newest value first. -/
def ofSeries (capacity : ℕ) (series : List ℚ) : RollingWindow ℚ := ⟨capacity, series.take capacity⟩

@[simp] theorem ofSeries_nil (capacity : ℕ) : ofSeries capacity [] = ⟨capacity, []⟩ := by simp [ofSeries]

@[simp] theorem clear_ofSeries (capacity : ℕ) (series : List ℚ) :
    (ofSeries capacity series).clear = ofSeries capacity [] := by
  simp [ofSeries, clear]

/-- A value that is taken in is the next one of the series. -/
@[simp] theorem push_ofSeries (capacity : ℕ) (series : List ℚ) (v : ℚ) :
    (ofSeries capacity series).push v = ofSeries capacity (v :: series) := by
  cases capacity with
  | zero => simp [ofSeries, push]
  | succ n => simp [ofSeries, push, List.take_take]

theorem isEmpty_ofSeries {capacity : ℕ} (h : 0 < capacity) (series : List ℚ) :
    (ofSeries capacity series).isEmpty = true ↔ series = [] := by
  simp [ofSeries, isEmpty, h.ne']

end RollingWindow

/-! ## Histories -/

namespace PacingCall

variable {α : Type}

/-- Whether the call ends, drops or forgets a run that was begun. -/
def settles : PacingCall α → Bool
  | .finish _ | .abandon | .reset => true
  | .start .. | .ask _ => false

def isReset : PacingCall α → Bool
  | .reset => true
  | .start .. | .ask _ | .finish _ | .abandon => false

/-- The beginning that the call makes. -/
def beginning? : PacingCall α → Option Instant
  | .start _ now => some now
  | .ask _ | .finish _ | .abandon | .reset => none

def latency? : PacingCall α → Option α
  | .start latency _ => some latency
  | .ask _ | .finish _ | .abandon | .reset => none

/-- The time that the call tells. -/
def time? : PacingCall α → Option Instant
  | .start _ now | .ask now | .finish now => some now
  | .abandon | .reset => none

end PacingCall

/-- The calls that were made, the newest first. -/
abbrev PacingHistory := List (PacingCall ℚ)

/-- A run that was begun and has ended. -/
structure FinishedRun where
  startedAt : Instant
  finishedAt : Instant

/-- What the run cost. -/
def FinishedRun.cost (r : FinishedRun) : ℚ := max 0 (r.startedAt.secondsTo r.finishedAt)

namespace PacingHistory

/-- The calls since the last reset. -/
def sinceReset (h : PacingHistory) : PacingHistory := h.takeWhile (!·.isReset)

/-- The latest beginning since the last finish, failure or reset. -/
def startedAt? (h : PacingHistory) : Option Instant := (h.takeWhile (!·.settles)).findSome? (·.beginning?)

/-- The run that the newest call ends. -/
def ended? : PacingHistory → Option FinishedRun
  | .finish now :: earlier => (startedAt? earlier).map (⟨·, now⟩)
  | _ => none

/-- The runs that have ended, the newest first. -/
def runs : PacingHistory → List FinishedRun
  | [] => []
  | call :: earlier => (ended? (call :: earlier)).toList ++ runs earlier

/-- The costs of the runs that have ended since the last reset. -/
def costs (h : PacingHistory) : List ℚ := h.sinceReset.runs.map (·.cost)

/-- The end of the latest run. -/
def finishedAt? (h : PacingHistory) : Option Instant := h.runs.head?.map (·.finishedAt)

/-- The latencies that were told since the last reset. -/
def latencies (h : PacingHistory) : List ℚ := h.sinceReset.filterMap (·.latency?)

section Cons

variable (h : PacingHistory) (latency : ℚ) (now : Instant)

@[simp] theorem startedAt?_start : startedAt? (.start latency now :: h) = some now := rfl

@[simp] theorem startedAt?_ask : startedAt? (.ask now :: h) = startedAt? h := rfl

@[simp] theorem startedAt?_finish : startedAt? (.finish now :: h) = none := rfl

@[simp] theorem startedAt?_abandon : startedAt? (.abandon :: h) = none := rfl

@[simp] theorem startedAt?_reset : startedAt? (.reset :: h) = none := rfl

/-- What was begun before the last reset does not count. -/
@[simp] theorem startedAt?_sinceReset : startedAt? (sinceReset h) = startedAt? h := by
  induction h with
  | nil => rfl
  | cons call h ih => cases call <;> first | rfl | exact ih

@[simp] theorem costs_start : costs (.start latency now :: h) = costs h := rfl

@[simp] theorem costs_ask : costs (.ask now :: h) = costs h := rfl

@[simp] theorem costs_abandon : costs (.abandon :: h) = costs h := rfl

@[simp] theorem costs_reset : costs (.reset :: h) = [] := rfl

/-- A finish brings one cost or none. -/
theorem costs_finish : costs (.finish now :: h) =
    (startedAt? h).toList.map (fun started => max 0 (started.secondsTo now)) ++ costs h := by
  have hsince : sinceReset (.finish now :: h) = .finish now :: sinceReset h := rfl
  rw [costs, hsince, runs, ended?, startedAt?_sinceReset]
  cases startedAt? h <;> rfl

theorem finishedAt?_finish : finishedAt? (.finish now :: h) =
    if (startedAt? h).isSome then some now else finishedAt? h := by
  rw [finishedAt?, runs, ended?]
  cases startedAt? h <;> rfl

end Cons

theorem nonneg_of_mem_costs {h : PacingHistory} {cost : ℚ} (hmem : cost ∈ h.costs) : 0 ≤ cost := by
  obtain ⟨r, -, rfl⟩ := List.mem_map.mp hmem
  exact le_max_left _ _

/-- The costs since the last reset are costs of runs. -/
theorem exists_finishedAt? {h : PacingHistory} (hcosts : h.costs ≠ []) : ∃ last, h.finishedAt? = some last := by
  induction h with
  | nil => exact absurd rfl hcosts
  | cons call h ih =>
    cases call with
    | finish now =>
      rw [finishedAt?_finish]
      cases hstarted : startedAt? h with
      | some started => exact ⟨now, rfl⟩
      | none =>
        rw [costs_finish, hstarted] at hcosts
        exact ih hcosts
    | reset => exact absurd rfl hcosts
    | start latency now => exact ih hcosts
    | ask now => exact ih hcosts
    | abandon => exact ih hcosts

end PacingHistory

/-- The mean of the newest values of a series, as many as a window holds that was asked to hold `room`. Zero without
values. -/
def meanOfLatest (room : ℕ) (series : List ℚ) : ℚ :=
  (series.take (max room 1)).sum / (min series.length (max room 1) : ℕ)

theorem meanOfLatest_nonneg {room : ℕ} {series : List ℚ} (h : ∀ v ∈ series, 0 ≤ v) : 0 ≤ meanOfLatest room series :=
  div_nonneg (List.sum_nonneg fun v hv => h v (List.mem_of_mem_take hv)) (Nat.cast_nonneg _)

theorem RollingWindow.mean_ofSeries (room : ℕ) (series : List ℚ) :
    (ofSeries (max room 1) series).mean = meanOfLatest room series := by
  rw [mean, ofSeries, Scalar.mean_rat, List.length_take, min_comm]
  rfl

namespace PacingHistory

/-- The mean of the latest costs since the last reset. -/
def meanCost (h : PacingHistory) (room : ℕ) : ℚ := meanOfLatest room h.costs

/-- The mean of the latest latencies since the last reset. -/
def meanLatency (h : PacingHistory) (room : ℕ) : ℚ := meanOfLatest room h.latencies

theorem meanCost_nonneg (h : PacingHistory) (room : ℕ) : 0 ≤ h.meanCost room :=
  meanOfLatest_nonneg fun _ => nonneg_of_mem_costs

end PacingHistory

namespace DenoiseScheduler

variable {s : DenoiseScheduler ℚ} {room : ℕ} {h : PacingHistory}

/-! ## What is remembered -/

/-- The memory, of windows that were asked to hold `room` values, is what the history says. -/
structure Recalls (s : DenoiseScheduler ℚ) (room : ℕ) (h : PacingHistory) : Prop where
  startedAt : s.startedAt = h.startedAt?
  cost : s.cost = .ofSeries (max room 1) h.costs
  latency : s.latency = .ofSeries (max room 1) h.latencies
  finishedAt : s.finishedAt = h.finishedAt?

/-- A question moves the interval and what it is compared with, and nothing else. -/
theorem shouldRun_eq (s : DenoiseScheduler ℚ) (now : Instant) : ∃ minInterval evaluation,
    (s.shouldRun now).1 = { s with minInterval, evaluation } := by
  unfold shouldRun
  split
  · exact ⟨_, _, rfl⟩
  · split
    · exact ⟨_, _, rfl⟩
    · simp only
      generalize (if Scalar.lt s.minInterval s.cost.mean then s.cost.mean else s.minInterval) = interval
      split
      · exact ⟨_, _, rfl⟩
      · split <;> exact ⟨_, _, rfl⟩

theorem recalls_new (room : ℕ) : (new room).Recalls room [] where
  startedAt := rfl
  cost := (RollingWindow.ofSeries_nil _).symm
  latency := (RollingWindow.ofSeries_nil _).symm
  finishedAt := rfl

theorem Recalls.finish (hs : s.Recalls room h) (now : Instant) : (s.finish now).Recalls room (.finish now :: h) := by
  rw [DenoiseScheduler.finish, hs.startedAt]
  cases hstarted : h.startedAt? with
  | none =>
    -- The finish has no beginning to itself.
    refine ⟨hs.startedAt.trans hstarted, ?_, hs.latency, ?_⟩
    · rw [PacingHistory.costs_finish, hstarted]
      exact hs.cost
    · rw [PacingHistory.finishedAt?_finish, hstarted]
      exact hs.finishedAt
  | some started =>
    refine ⟨rfl, ?_, hs.latency, ?_⟩
    · change s.cost.push _ = _
      rw [PacingHistory.costs_finish, hstarted, hs.cost, RollingWindow.push_ofSeries, Instant.seconds_since]
      rfl
    · rw [PacingHistory.finishedAt?_finish, hstarted]
      rfl

theorem Recalls.after (hs : s.Recalls room h) (call : PacingCall ℚ) : (s.after call).Recalls room (call :: h) := by
  cases call with
  | start latency now =>
    refine ⟨rfl, hs.cost, ?_, hs.finishedAt⟩
    rw [DenoiseScheduler.after, start, hs.latency, RollingWindow.push_ofSeries]
    rfl
  | ask now =>
    obtain ⟨minInterval, evaluation, heq⟩ := s.shouldRun_eq now
    rw [DenoiseScheduler.after, heq]
    exact ⟨hs.startedAt, hs.cost, hs.latency, hs.finishedAt⟩
  | finish now => exact hs.finish now
  | abandon => exact ⟨rfl, hs.cost, hs.latency, hs.finishedAt⟩
  | reset =>
    refine ⟨rfl, ?_, ?_, hs.finishedAt⟩
    · rw [DenoiseScheduler.after, reset, hs.cost, RollingWindow.clear_ofSeries]
      rfl
    · rw [DenoiseScheduler.after, reset, hs.latency, RollingWindow.clear_ofSeries]
      rfl

/-- The memory after a run of calls is what their history says. -/
theorem recalls_afterAll (room : ℕ) (calls : List (PacingCall ℚ)) :
    ((new room).afterAll calls).Recalls room calls.reverse := by
  induction calls using List.reverseRecOn with
  | nil => exact recalls_new room
  | append_singleton calls call ih =>
    rw [afterAll, List.foldl_concat, List.reverse_concat]
    exact ih.after call

section Recalls

variable (hs : s.Recalls room h)
include hs

theorem Recalls.mean_cost : s.cost.mean = h.meanCost room := by
  rw [hs.cost, RollingWindow.mean_ofSeries, PacingHistory.meanCost]

theorem Recalls.mean_latency : s.latency.mean = h.meanLatency room := by
  rw [hs.latency, RollingWindow.mean_ofSeries, PacingHistory.meanLatency]

theorem Recalls.cost_isEmpty : s.cost.isEmpty = true ↔ h.costs = [] := by
  rw [hs.cost, RollingWindow.isEmpty_ofSeries (by omega)]

theorem Recalls.costs_ne_nil (costly : s.cost.isEmpty = false) : h.costs ≠ [] := fun hnone => by
  rw [hs.cost_isEmpty.mpr hnone] at costly
  cases costly

/-- Where there are costs, there is the end of a run to compare with. -/
theorem Recalls.costs_eq_nil (bare : s.cost.isEmpty = true ∨ s.finishedAt = none) : h.costs = [] := by
  rcases bare with hempty | hnone
  · exact hs.cost_isEmpty.mp hempty
  · by_contra hcosts
    obtain ⟨last, hlast⟩ := PacingHistory.exists_finishedAt? hcosts
    rw [← hs.finishedAt, hnone] at hlast
    cases hlast

theorem Recalls.mean_cost_nonneg : 0 ≤ s.cost.mean := hs.mean_cost ▸ h.meanCost_nonneg room

end Recalls

/-! ## Decisions -/

/-- The interval, raised to the mean cost. -/
def raised (s : DenoiseScheduler ℚ) : ℚ := max s.minInterval s.cost.mean

/-- What the next tuning compares with. -/
def current (s : DenoiseScheduler ℚ) : ℚ := s.latency.mean + 9 / 10 * s.raised

/-- All that a question can come to: the memory it leaves, and the answer. -/
inductive Decision (s : DenoiseScheduler ℚ) (now : Instant) : DenoiseScheduler ℚ × Bool → Prop where
  /-- There is nothing to compare with. -/
  | free (bare : s.cost.isEmpty = true ∨ s.finishedAt = none) : Decision s now (s, true)
  /-- No longer than the mean cost has gone by. -/
  | tooEarly {last : Instant} (costly : s.cost.isEmpty = false) (ended : s.finishedAt = some last)
      (early : last.secondsTo now ≤ s.cost.mean) : Decision s now (s, false)
  /-- No longer than the interval has gone by, which is raised all the same. -/
  | held {last : Instant} (costly : s.cost.isEmpty = false) (ended : s.finishedAt = some last)
      (late : s.cost.mean < last.secondsTo now) (held : last.secondsTo now ≤ s.raised) :
      Decision s now ({ s with minInterval := s.raised }, false)
  /-- The run may begin, and the interval is tuned. -/
  | run {last : Instant} (costly : s.cost.isEmpty = false) (ended : s.finishedAt = some last)
      (late : s.raised < last.secondsTo now) :
      Decision s now
        ({ s with
            minInterval := tuned s.raised s.evaluation s.current s.latency.mean s.cost.mean
            evaluation := s.current }, true)

theorem raised_eq (s : DenoiseScheduler ℚ) :
    (if Scalar.lt s.minInterval s.cost.mean then s.cost.mean else s.minInterval) = s.raised := by
  rw [raised, max_def]
  simp only [Scalar.lt_rat]
  split_ifs with hlt hle hle
  · rfl
  · exact absurd hlt.le hle
  · exact le_antisymm hle (not_lt.mp hlt)
  · rfl

theorem decision (hcost : 0 ≤ s.cost.mean) (now : Instant) : s.Decision now (s.shouldRun now) := by
  unfold shouldRun
  split
  case isTrue hempty => exact .free (.inl hempty)
  case isFalse hsome =>
    rw [Bool.not_eq_true] at hsome
    split
    case h_1 hended => exact .free (.inr hended)
    case h_2 last hended =>
      have helapsed (x : ℚ) (hx : 0 ≤ x) : max 0 (last.secondsTo now) ≤ x ↔ last.secondsTo now ≤ x := by simp [hx]
      have hraised : 0 ≤ s.raised := hcost.trans (le_max_right _ _)
      have hcurrent : s.latency.mean + Scalar.ratio 9 10 * s.raised = s.current := by
        rw [current, Scalar.ratio_rat]
        norm_num
      simp only [Instant.seconds_since, Scalar.le_rat, raised_eq, helapsed _ hcost, helapsed _ hraised, hcurrent]
      split
      case isTrue hearly => exact .tooEarly hsome hended hearly
      case isFalse hlate =>
        split
        case isTrue hheld => exact .held hsome hended (not_le.mp hlate) hheld
        case isFalse hfree => exact .run hsome hended (not_le.mp hfree)

/-- A run may begin when there is no cost to compare with, or when longer has gone by since the last one than runs cost
and than the interval. -/
theorem Recalls.shouldRun_iff (hs : s.Recalls room h) (now : Instant) : (s.shouldRun now).2 = true ↔
    h.costs = [] ∨ ∃ last, h.finishedAt? = some last ∧ h.meanCost room < last.secondsTo now ∧
      s.minInterval < last.secondsTo now := by
  have hlast' {last : Instant} (ended : s.finishedAt = some last) : h.finishedAt? = some last := hs.finishedAt ▸ ended
  rw [← hs.mean_cost]
  have hdecision := decision hs.mean_cost_nonneg now
  generalize s.shouldRun now = outcome at hdecision ⊢
  cases hdecision with
  | free bare => exact iff_of_true rfl (.inl (hs.costs_eq_nil bare))
  | tooEarly costly ended early =>
    refine iff_of_false Bool.false_ne_true ?_
    rintro (hnone | ⟨last, hlast, hlate, -⟩)
    · exact hs.costs_ne_nil costly hnone
    · cases hlast.symm.trans (hlast' ended)
      exact absurd hlate (not_lt.mpr early)
  | held costly ended late held =>
    refine iff_of_false Bool.false_ne_true ?_
    rintro (hnone | ⟨last, hlast, -, hfree⟩)
    · exact hs.costs_ne_nil costly hnone
    · cases hlast.symm.trans (hlast' ended)
      rcases le_max_iff.mp held with hle | hle
      · exact absurd hfree (not_lt.mpr hle)
      · exact absurd late (not_lt.mpr hle)
  | run costly ended late =>
    obtain ⟨hinterval, hcost⟩ := max_lt_iff.mp late
    exact iff_of_true rfl (.inr ⟨_, hlast' ended, hcost, hinterval⟩)

/-! ## The law -/

/-- What the pacing counts and answers is what the history of its calls prescribes. -/
structure FollowsHistory (s : DenoiseScheduler ℚ) (room : ℕ) (h : PacingHistory) : Prop where
  /-- A finish with a beginning to itself counts the time between them. -/
  counted : ∀ started, h.startedAt? = some started → ∀ now,
    (s.finish now).cost = s.cost.push (max 0 (started.secondsTo now))
  /-- No other call counts anything, and only a reset takes something away. -/
  uncounted : ∀ call, call ≠ .reset → PacingHistory.ended? (call :: h) = none → (s.after call).cost = s.cost
  costs : s.cost.values = h.costs.take (max room 1)
  meanCost : s.figures.meanCost = h.meanCost room
  meanLatency : s.figures.meanLatency = h.meanLatency room
  decision : ∀ now, (s.shouldRun now).2 = true ↔
    h.costs = [] ∨ ∃ last, h.finishedAt? = some last ∧ h.meanCost room < last.secondsTo now ∧
      s.minInterval < last.secondsTo now

theorem Recalls.cost_after (hs : s.Recalls room h) {call : PacingCall ℚ} (hcall : call ≠ .reset)
    (hended : PacingHistory.ended? (call :: h) = none) : (s.after call).cost = s.cost := by
  cases call with
  | start latency now => rfl
  | ask now => exact s.cost_shouldRun now
  | finish now =>
    have hstarted : s.startedAt = none := hs.startedAt.trans (Option.map_eq_none_iff.mp hended)
    rw [DenoiseScheduler.after, DenoiseScheduler.finish, hstarted]
  | abandon => rfl
  | reset => exact absurd rfl hcall

/-- The pacing is determined by the history of its calls, however badly they match and whatever times they give. A
finish counts if a run was begun since the latest finish, failure or reset, and counts the time since the latest such
beginning. Both means are over the latest values since the last reset, as many as there are and as there is room for. A
run may begin if there are no costs since then, or if longer has gone by since the latest run that counted than the mean
cost and than the interval. -/
theorem afterAll_followsHistory (room : ℕ) (calls : List (PacingCall ℚ)) :
    ((new room).afterAll calls).FollowsHistory room calls.reverse := by
  have hs := recalls_afterAll room calls
  refine ⟨fun started hstarted now => ?_, fun call hcall hended => hs.cost_after hcall hended, ?_, hs.mean_cost,
    hs.mean_latency, hs.shouldRun_iff⟩
  · rw [DenoiseScheduler.finish, hs.startedAt, hstarted, ← Instant.seconds_since]
  · rw [hs.cost]
    rfl

/-- A finish ahead of its beginning costs nothing, and one without a beginning or after a failure does not count. -/
example : PacingHistory.costs [.finish ⟨9⟩, .abandon, .start 0 ⟨8⟩, .finish ⟨7⟩, .finish ⟨4⟩, .start 0 ⟨5⟩] = [0] := by
  decide +kernel

end DenoiseScheduler

end ProgressiveFrame
