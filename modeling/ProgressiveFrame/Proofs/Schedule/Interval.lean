import Mathlib.Tactic.Linarith
import Mathlib.Tactic.Ring
import ProgressiveFrame.Proofs.Schedule.History

/-!
# Where the interval can go

Every run that may begin tunes the interval, up to 1.2 times the mean latency or down to the mean cost. Nothing says
that the first of these is the greater one. Seconds are exact here.

* `tuned_of_lt`, `tuned_of_gt`, `tuned_of_still`: the three tunings, and where they end (`min_le_tuned`, `tuned_le`).
* `minInterval_floor`: where 1.2 times the mean latency lies under the mean cost, an increase ends there, and no other
  tuning ends under the mean cost.
* `PacingHistory.bound`: the greatest mean cost or 1.2 times mean latency that a question has met since the last reset.
* `minInterval_le_bound`: the interval stays between zero and there, so that a run may begin once longer has gone by.
-/

namespace ProgressiveFrame

namespace DenoiseScheduler

/-! ## Tunings -/

section Tuned

variable {interval previous current latency cost : ℚ}

theorem tuned_of_lt (hpos : 0 < previous) (h : previous < current) : tuned interval previous current latency cost =
    min (interval + min (current - previous) (interval / 2)) (6 / 5 * latency) := by
  have hzero : Scalar.lt (Scalar.zero : ℚ) previous = true := Scalar.lt_rat.mpr hpos
  have hhalf : interval * Scalar.ratio 1 2 = interval / 2 := by rw [Scalar.ratio_rat]; ring
  have hcap : latency * Scalar.ratio 12 10 = 6 / 5 * latency := by rw [Scalar.ratio_rat]; ring
  rw [tuned, if_pos hzero, if_pos (Scalar.lt_rat.mpr h), Scalar.min_rat, Scalar.min_rat, hhalf, hcap]

theorem tuned_of_gt (hpos : 0 < previous) (h : current < previous) : tuned interval previous current latency cost =
    max (interval - min (previous - current) (interval / 2)) cost := by
  have hzero : Scalar.lt (Scalar.zero : ℚ) previous = true := Scalar.lt_rat.mpr hpos
  have hhalf : interval * Scalar.ratio 1 2 = interval / 2 := by rw [Scalar.ratio_rat]; ring
  have hnot : ¬ Scalar.lt previous current = true := fun hlt => lt_asymm h (Scalar.lt_rat.mp hlt)
  rw [tuned, if_pos hzero, if_neg hnot, if_pos (Scalar.lt_rat.mpr h), Scalar.max_rat, Scalar.min_rat, hhalf]

theorem tuned_of_still (h : previous ≤ 0 ∨ current = previous) :
    tuned interval previous current latency cost = interval := by
  rcases h with hzero | rfl
  · have hnot : ¬ Scalar.lt (Scalar.zero : ℚ) previous = true := fun hlt =>
      absurd (Scalar.lt_rat.mp hlt) (not_lt.mpr hzero)
    rw [tuned, if_neg hnot]
  · have hnot : ¬ Scalar.lt current current = true := fun hlt => lt_irrefl _ (Scalar.lt_rat.mp hlt)
    simp only [tuned, hnot]
    exact ite_self _

/-- A tuning has something to compare with and finds an increase, or a decrease, or changes nothing. -/
theorem tuning_cases (previous current : ℚ) :
    (0 < previous ∧ previous < current) ∨ (0 < previous ∧ current < previous) ∨ previous ≤ 0 ∨ current = previous := by
  rcases le_or_gt previous 0 with hzero | hpos
  · exact .inr (.inr (.inl hzero))
  · rcases lt_trichotomy previous current with hlt | heq | hgt
    · exact .inl ⟨hpos, hlt⟩
    · exact .inr (.inr (.inr heq.symm))
    · exact .inr (.inl ⟨hpos, hgt⟩)

/-- The step of a tuning is not negative. -/
theorem step_nonneg {low high : ℚ} (hpos : 0 ≤ interval) (h : low < high) : 0 ≤ min (high - low) (interval / 2) :=
  le_min (sub_nonneg.mpr h.le) (div_nonneg hpos zero_le_two)

section Raised

variable (hpos : 0 ≤ interval) (hfloor : cost ≤ interval)
include hpos hfloor

/-- Only where the latency cuts an increase off does an interval go under a cost that it was not under. -/
theorem tuned_lt_cost_iff : tuned interval previous current latency cost < cost ↔
    0 < previous ∧ previous < current ∧ 6 / 5 * latency < cost := by
  rcases tuning_cases previous current with ⟨hprevious, hlt⟩ | ⟨hprevious, hgt⟩ | hstill
  · have hstep := step_nonneg hpos hlt
    have hgrown : ¬ interval + min (current - previous) (interval / 2) < cost := by linarith
    rw [tuned_of_lt hprevious hlt, min_lt_iff]
    simp only [hgrown, hprevious, hlt, false_or, true_and]
  · rw [tuned_of_gt hprevious hgt]
    refine iff_of_false (not_lt.mpr (le_max_right _ _)) ?_
    rintro ⟨-, hlt, -⟩
    exact lt_asymm hlt hgt
  · rw [tuned_of_still hstill]
    refine iff_of_false (not_lt.mpr hfloor) ?_
    rintro ⟨hprevious, hlt, -⟩
    rcases hstill with hzero | heq
    · exact absurd hprevious (not_lt.mpr hzero)
    · exact absurd hlt heq.not_gt

theorem tuned_eq_of_lt_cost (h : tuned interval previous current latency cost < cost) :
    tuned interval previous current latency cost = 6 / 5 * latency := by
  obtain ⟨hprevious, hincrease, hcap⟩ := (tuned_lt_cost_iff hpos hfloor).mp h
  have hstep := step_nonneg hpos hincrease
  rw [tuned_of_lt hprevious hincrease]
  exact min_eq_right (by linarith)

theorem min_le_tuned : min cost (6 / 5 * latency) ≤ tuned interval previous current latency cost := by
  by_cases hlt : tuned interval previous current latency cost < cost
  · rw [tuned_eq_of_lt_cost hpos hfloor hlt]
    exact min_le_right _ _
  · exact (min_le_left _ _).trans (not_lt.mp hlt)

theorem tuned_le : tuned interval previous current latency cost ≤ max interval (6 / 5 * latency) := by
  rcases tuning_cases previous current with ⟨hprevious, hlt⟩ | ⟨hprevious, hgt⟩ | hstill
  · rw [tuned_of_lt hprevious hlt]
    exact (min_le_right _ _).trans (le_max_right _ _)
  · have hstep := step_nonneg hpos hgt
    rw [tuned_of_gt hprevious hgt]
    exact (max_le (by linarith) hfloor).trans (le_max_left _ _)
  · rw [tuned_of_still hstill]
    exact le_max_left _ _

end Raised

end Tuned

/-! ## The floor -/

variable {s : DenoiseScheduler ℚ} {room : ℕ} {h : PacingHistory}

theorem Recalls.raised_nonneg (hs : s.Recalls room h) : 0 ≤ s.raised := hs.mean_cost_nonneg.trans (le_max_right _ _)

theorem cost_le_raised (s : DenoiseScheduler ℚ) : s.cost.mean ≤ s.raised := le_max_right _ _

/-- A run that may begin with costs to compare with leaves the interval at the mean cost or above, unless an increase
was cut off by the latency. Then it leaves 1.2 times the mean latency. -/
theorem minInterval_floor (room : ℕ) (calls : List (PacingCall ℚ)) (now : Instant) :
    let s := (new room).afterAll calls
    let h : PacingHistory := calls.reverse
    let next := (s.shouldRun now).1
    (s.shouldRun now).2 = true → h.costs ≠ [] →
      (next.minInterval < h.meanCost room ↔
          0 < s.evaluation ∧ s.evaluation < s.current ∧ 6 / 5 * h.meanLatency room < h.meanCost room) ∧
        (next.minInterval < h.meanCost room → next.minInterval = 6 / 5 * h.meanLatency room) := by
  intro s h next hrun hcosts
  have hs : s.Recalls room h := recalls_afterAll room calls
  have hdecision := decision hs.mean_cost_nonneg now
  simp only [next]
  generalize s.shouldRun now = outcome at hdecision hrun ⊢
  cases hdecision with
  | free bare => exact absurd (hs.costs_eq_nil bare) hcosts
  | tooEarly costly ended early => cases hrun
  | held costly ended late held => cases hrun
  | run costly ended late =>
    rw [← hs.mean_cost, ← hs.mean_latency]
    exact ⟨tuned_lt_cost_iff hs.raised_nonneg s.cost_le_raised,
      tuned_eq_of_lt_cost hs.raised_nonneg s.cost_le_raised⟩

/-- Runs of one second are asked for every three seconds, at first with a latency of an eighth of a second. -/
def growingLatency (latency : ℚ) : List (PacingCall ℚ) :=
  [.start (1 / 8) ⟨0⟩, .ask ⟨0⟩, .finish ⟨1000000000⟩, .start (1 / 8) ⟨3000000000⟩, .ask ⟨3000000000⟩,
    .finish ⟨4000000000⟩, .start latency ⟨6000000000⟩]

/-- A latency of two and three quarters of a second makes room for an increase by half. -/
theorem minInterval_floor_increase :
    let calls := growingLatency (11 / 4)
    let s := (new 10).afterAll calls
    let h : PacingHistory := calls.reverse
    let next := (s.shouldRun ⟨6000000000⟩).1
    (s.shouldRun ⟨6000000000⟩).2 = true ∧ h.costs = [1, 1] ∧ h.meanCost 10 ≤ next.minInterval := by
  intro calls s h next
  have hrun : (s.shouldRun ⟨6000000000⟩).2 = true := by decide +kernel
  have hcosts : h.costs = [1, 1] := by decide +kernel
  have hcap : ¬ 6 / 5 * h.meanLatency 10 < h.meanCost 10 := by decide +kernel
  obtain ⟨hfloor, -⟩ := minInterval_floor 10 calls ⟨6000000000⟩ hrun (by rw [hcosts]; simp)
  exact ⟨hrun, hcosts, not_lt.mp fun hlt => hcap (hfloor.mp hlt).2.2⟩

/-- A latency of half a second makes room for less than a run costs. All latencies are positive, and no call comes ahead
of an earlier one; a run may begin, and the increase leaves three tenths of a second where runs cost a second. -/
theorem minInterval_underFloor :
    let calls := growingLatency (1 / 2)
    let now : Instant := ⟨6000000000⟩
    let s := (new 10).afterAll calls
    let next := (s.shouldRun now).1
    (∀ latency ∈ calls.filterMap (·.latency?), 0 ≤ latency) ∧
      (List.filterMap PacingCall.time? (calls ++ [.ask now])).Pairwise (·.nanos ≤ ·.nanos) ∧
      (s.shouldRun now).2 = true ∧ s.cost.values = [1, 1] ∧ next.cost.mean = 1 ∧ next.minInterval = 3 / 10 := by
  decide +kernel

end DenoiseScheduler

/-! ## The bound -/

namespace PacingHistory

/-- The greater one of the mean cost and of 1.2 times the mean latency. -/
def reach (h : PacingHistory) (room : ℕ) : ℚ := max (h.meanCost room) (6 / 5 * h.meanLatency room)

/-- The greatest reach that a question with costs to compare with has met since the last reset. Zero without one. -/
def bound (room : ℕ) : PacingHistory → ℚ
  | [] | .reset :: _ => 0
  | .ask _ :: earlier =>
    if costs earlier = [] then bound room earlier else max (bound room earlier) (reach earlier room)
  | .start .. :: earlier | .finish _ :: earlier | .abandon :: earlier => bound room earlier

theorem bound_ask {h : PacingHistory} {room : ℕ} (hcosts : h.costs ≠ []) (now : Instant) :
    bound room (.ask now :: h) = max (h.bound room) (h.reach room) := if_neg hcosts

theorem bound_le_ask (h : PacingHistory) (room : ℕ) (now : Instant) : h.bound room ≤ bound room (.ask now :: h) := by
  rw [bound]
  split
  · exact le_rfl
  · exact le_max_left _ _

theorem mem_of_mem_latencies {h : PacingHistory} {latency : ℚ} (hmem : latency ∈ h.latencies) :
    ∃ now, .start latency now ∈ h := by
  obtain ⟨call, hcall, hlatency⟩ := List.mem_filterMap.mp hmem
  cases call with
  | start told now =>
    cases hlatency
    exact ⟨now, (List.takeWhile_sublist _).subset hcall⟩
  | ask now => cases hlatency
  | finish now => cases hlatency
  | abandon => cases hlatency
  | reset => cases hlatency

end PacingHistory

namespace DenoiseScheduler

variable {s : DenoiseScheduler ℚ} {room : ℕ} {h : PacingHistory}

/-- The interval is not negative and not above the bound of the history. -/
structure WithinBound (s : DenoiseScheduler ℚ) (room : ℕ) (h : PacingHistory) : Prop where
  nonneg : 0 ≤ s.minInterval
  le_bound : s.minInterval ≤ h.bound room

/-- A question leaves the interval in the bound that it belongs to. -/
theorem WithinBound.shouldRun (hb : s.WithinBound room h) (hs : s.Recalls room h)
    (hlatency : 0 ≤ h.meanLatency room) (now : Instant) : (s.shouldRun now).1.WithinBound room (.ask now :: h) := by
  have hkept : s.WithinBound room (.ask now :: h) := ⟨hb.nonneg, hb.le_bound.trans (h.bound_le_ask room now)⟩
  have hraised (hcosts : h.costs ≠ []) : s.raised ≤ PacingHistory.bound room (.ask now :: h) := by
    rw [PacingHistory.bound_ask hcosts, raised, hs.mean_cost]
    exact max_le_max hb.le_bound (le_max_left _ _)
  have hdecision := decision hs.mean_cost_nonneg now
  generalize s.shouldRun now = outcome at hdecision ⊢
  cases hdecision with
  | free bare => exact hkept
  | tooEarly costly ended early => exact hkept
  | held costly ended late held => exact ⟨hs.raised_nonneg, hraised (hs.costs_ne_nil costly)⟩
  | run costly ended late =>
    have hcap : 6 / 5 * s.latency.mean ≤ PacingHistory.bound room (.ask now :: h) := by
      rw [PacingHistory.bound_ask (hs.costs_ne_nil costly), hs.mean_latency]
      exact (le_max_right _ _).trans (le_max_right _ _)
    have hcap_nonneg : 0 ≤ 6 / 5 * s.latency.mean := by
      rw [hs.mean_latency]
      linarith
    constructor
    · exact (le_min hs.mean_cost_nonneg hcap_nonneg).trans (min_le_tuned hs.raised_nonneg s.cost_le_raised)
    · exact (tuned_le hs.raised_nonneg s.cost_le_raised).trans (max_le (hraised (hs.costs_ne_nil costly)) hcap)

theorem WithinBound.after (hb : s.WithinBound room h) (hs : s.Recalls room h) (hlatency : 0 ≤ h.meanLatency room)
    (call : PacingCall ℚ) : (s.after call).WithinBound room (call :: h) := by
  cases call with
  | start latency now => exact ⟨hb.nonneg, hb.le_bound⟩
  | ask now => exact hb.shouldRun hs hlatency now
  | finish now =>
    rw [DenoiseScheduler.after, finish]
    split
    · exact ⟨hb.nonneg, hb.le_bound⟩
    · exact ⟨hb.nonneg, hb.le_bound⟩
  | abandon => exact ⟨hb.nonneg, hb.le_bound⟩
  | reset => exact ⟨le_rfl, le_rfl⟩

/-- A run of calls that tell no negative latency leaves the interval within bounds. -/
theorem withinBound_afterAll {calls : List (PacingCall ℚ)}
    (hlatency : ∀ latency now, .start latency now ∈ calls → 0 ≤ latency) :
    ((new room).afterAll calls).WithinBound room calls.reverse := by
  induction calls using List.reverseRecOn with
  | nil => exact ⟨le_rfl, le_rfl⟩
  | append_singleton calls call ih =>
    have hmean : 0 ≤ PacingHistory.meanLatency calls.reverse room := meanOfLatest_nonneg fun latency hmem => by
      obtain ⟨now, hstart⟩ := PacingHistory.mem_of_mem_latencies hmem
      exact hlatency latency now (List.mem_append_left _ (List.mem_reverse.mp hstart))
    rw [afterAll, List.foldl_concat, List.reverse_concat]
    exact (ih fun latency now hmem => hlatency latency now (List.mem_append_left _ hmem)).after
      (recalls_afterAll room calls) hmean call

/-- The interval is bounded, so that denoising is never starved. After a run of calls that tell no negative latency it
is between zero and the bound of their history, and a run may begin whenever longer has gone by since the latest run
than the bound, with the present question among the others. -/
theorem minInterval_le_bound (room : ℕ) (calls : List (PacingCall ℚ))
    (hlatency : ∀ latency now, .start latency now ∈ calls → 0 ≤ latency) :
    let s := (new room).afterAll calls
    let h : PacingHistory := calls.reverse
    (0 ≤ s.minInterval ∧ s.minInterval ≤ h.bound room) ∧
      ∀ now, (∀ last, h.finishedAt? = some last → PacingHistory.bound room (.ask now :: h) < last.secondsTo now) →
        (s.shouldRun now).2 = true := by
  intro s h
  have hs : s.Recalls room h := recalls_afterAll room calls
  have hb : s.WithinBound room h := withinBound_afterAll hlatency
  refine ⟨⟨hb.nonneg, hb.le_bound⟩, fun now hlong => (hs.shouldRun_iff now).mpr ?_⟩
  by_cases hcosts : h.costs = []
  · exact .inl hcosts
  · obtain ⟨last, hlast⟩ := PacingHistory.exists_finishedAt? hcosts
    have hlong := hlong last hlast
    rw [PacingHistory.bound_ask hcosts, max_lt_iff, PacingHistory.reach, max_lt_iff] at hlong
    exact .inr ⟨last, hlast, hlong.2.1, hb.le_bound.trans_lt hlong.1⟩

/-- The increase that the latency made room for ends at the bound, and the next run may begin once longer has gone by,
not before. -/
theorem minInterval_le_bound_reached :
    let calls := growingLatency (11 / 4) ++ [.ask ⟨6000000000⟩, .finish ⟨7000000000⟩]
    let s := (new 10).afterAll calls
    let h : PacingHistory := calls.reverse
    let soon : Instant := ⟨8200000000⟩
    let later : Instant := ⟨8200000001⟩
    (∀ latency now, .start latency now ∈ calls → 0 ≤ latency) ∧
      (s.minInterval = 6 / 5 ∧ h.bound 10 = 6 / 5 ∧ s.minInterval ≤ h.bound 10) ∧
      (s.shouldRun soon).2 = false ∧ (s.shouldRun later).2 = true := by
  intro calls s h soon later
  have hlatency : ∀ latency now, .start latency now ∈ calls → 0 ≤ latency := by
    intro latency now hmem
    simp only [calls, growingLatency, List.cons_append, List.nil_append, List.mem_cons, PacingCall.start.injEq,
      reduceCtorEq, List.not_mem_nil, or_false, false_or] at hmem
    rcases hmem with ⟨rfl, -⟩ | ⟨rfl, -⟩ | ⟨rfl, -⟩ <;> norm_num
  obtain ⟨⟨-, hbound⟩, hfree⟩ := minInterval_le_bound 10 calls hlatency
  refine ⟨hlatency, ⟨by decide +kernel, by decide +kernel, hbound⟩, by decide +kernel, hfree later fun last hlast => ?_⟩
  have hended : h.finishedAt? = some ⟨7000000000⟩ := by decide +kernel
  cases hlast.symm.trans hended
  decide +kernel

end DenoiseScheduler

end ProgressiveFrame
