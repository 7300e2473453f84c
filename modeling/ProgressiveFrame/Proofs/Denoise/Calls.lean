import ProgressiveFrame.Denoise.Cached

/-!
# Requests to a denoiser, one at a time

What a denoiser with a memory does with one request is one of six things (`CachedDenoiser.Call`).

* `CachedDenoiser.call`: everything that a request can do is one of the six. A picture is given again only by a
  denoiser that was in place before the request.
* `CachedDenoiser.process_congr_run`: a request asks the outside denoiser for nothing but the run that its step
  reports.
-/

namespace ProgressiveFrame

namespace CachedDenoiser

variable {d d' : CachedDenoiser} {a : DenoiseAnswers} {q : DenoiseRequest} {built : Option DenoiserConfig}

/-- The pacing after the decision on a run, with the decision. -/
def decision (d : CachedDenoiser) (a : DenoiseAnswers) (q : DenoiseRequest) : DenoiseScheduler Binary32 × Bool :=
  (d.scheduler.start q.latency a.enteredAt).shouldRun a.decidedAt

@[simp] theorem cost_decision (d : CachedDenoiser) (a : DenoiseAnswers) (q : DenoiseRequest) :
    (d.decision a q).1.cost = d.scheduler.cost := by
  rw [decision, DenoiseScheduler.cost_shouldRun]
  rfl

/-- Without a cost to compare with, a run is due. -/
theorem due_of_cost_isEmpty (h : d.scheduler.cost.isEmpty = true) : (d.decision a q).2 = true := by
  rw [decision, DenoiseScheduler.shouldRun_of_cost_isEmpty (by exact h)]

/-- The denoiser that a request asks for is in place. It was kept, or the old one has made way for it. -/
inductive Prepared (d : CachedDenoiser) (a : DenoiseAnswers) (q : DenoiseRequest) :
    CachedDenoiser → Option DenoiserConfig → Prop where
  | kept (hsame : d.active = some q.config) : Prepared d a q d none
  | rebuilt (hother : d.active ≠ some q.config) (hbuild : a.build q.config = .ok ()) :
    Prepared d a q { d.dismantled with active := some q.config } (some q.config)

theorem Prepared.active (h : d.Prepared a q d' built) : d'.active = some q.config := by
  cases h with
  | kept hsame => exact hsame
  | rebuilt _ _ => rfl

/-- Where no run is due the denoiser was kept, for a new one has no cost to wait for. -/
theorem Prepared.kept_of_not_due (h : d.Prepared a q d' built) (hdue : (d'.decision a q).2 = false) :
    d.active = some q.config ∧ d' = d ∧ built = none := by
  cases h with
  | kept hsame => exact ⟨hsame, rfl, rfl⟩
  | rebuilt _ _ => exact absurd (due_of_cost_isEmpty (by rfl)) (Bool.eq_false_iff.mp hdue)

/-- What a request can do to a denoiser, with what it gives. -/
inductive Call (d : CachedDenoiser) (a : DenoiseAnswers) (q : DenoiseRequest) : DenoiseStep → Prop where
  /-- The denoiser that is asked for cannot be built. The old one is gone. -/
  | unbuilt {e : DenoiseError} (hother : d.active ≠ some q.config) (hbuild : a.build q.config = .error e) :
    Call d a q ⟨{ d.dismantled with lastError := some (setupMessage e) }, q.input.beauty, .fallback e,
      some q.config, none⟩
  /-- A new frame begins. -/
  | skipped {d' : CachedDenoiser} {built : Option DenoiserConfig} (hp : d.Prepared a q d' built)
      (hstart : q.frameStarted = true) :
    Call d a q ⟨{ d' with scheduler := d'.scheduler.reset }, q.input.beauty, .skippedFrameStart, built, none⟩
  /-- No run is due, and the previous picture has the size that is asked for. -/
  | reused (hsame : d.active = some q.config) (hstart : q.frameStarted = false)
      (hdue : (d.decision a q).2 = false) (hsize : d.lastOutput.size = q.input.beauty.size) :
    Call d a q ⟨{ d with scheduler := (d.decision a q).1.abandon }, d.lastOutput, .reused, none, none⟩
  /-- No run is due, and there is no previous picture of the size that is asked for. -/
  | declined (hsame : d.active = some q.config) (hstart : q.frameStarted = false)
      (hdue : (d.decision a q).2 = false) (hsize : d.lastOutput.size ≠ q.input.beauty.size) :
    Call d a q ⟨{ d with scheduler := (d.decision a q).1.abandon }, q.input.beauty, .declined, none, none⟩
  /-- A run is made. -/
  | denoised {d' : CachedDenoiser} {built : Option DenoiserConfig} {output : Array Binary32}
      (hp : d.Prepared a q d' built) (hstart : q.frameStarted = false) (hdue : (d'.decision a q).2 = true)
      (hrun : a.run q.input = .ok output) :
    Call d a q ⟨{ d' with scheduler := (d'.decision a q).1.finish a.finishedAt, lastOutput := output }, output,
      .denoised, built, some q.input⟩
  /-- A run is made and fails. -/
  | failed {d' : CachedDenoiser} {built : Option DenoiserConfig} {e : DenoiseError}
      (hp : d.Prepared a q d' built) (hstart : q.frameStarted = false) (hdue : (d'.decision a q).2 = true)
      (hrun : a.run q.input = .error e) :
    Call d a q ⟨{ d' with scheduler := (d'.decision a q).1.abandon, lastError := some e.message }, q.input.beauty,
      .fallback e, built, some q.input⟩

theorem call_processReady (hp : d.Prepared a q d' built) : d.Call a q (d'.processReady a q built) := by
  unfold processReady
  split
  · rename_i hstart
    exact .skipped hp hstart
  · rename_i hstart
    rw [Bool.not_eq_true] at hstart
    unfold decideAndRun
    cases hdue : (d'.decision a q).2 with
    | false =>
      obtain ⟨hsame, rfl, rfl⟩ := hp.kept_of_not_due hdue
      rw [decision] at hdue
      simp only [hdue, Bool.not_false, if_true]
      split
      · rename_i hsize
        exact .reused hsame hstart hdue hsize
      · rename_i hsize
        exact .declined hsame hstart hdue hsize
    | true =>
      have hdue' := hdue
      rw [decision] at hdue'
      simp only [hdue', Bool.not_true, Bool.false_eq_true, if_false, hp.active]
      cases hrun : a.run q.input with
      | ok output => exact hp.active ▸ .denoised hp hstart hdue hrun
      | error e => exact hp.active ▸ .failed hp hstart hdue hrun

/-- A request does one of six things. -/
theorem call (d : CachedDenoiser) (a : DenoiseAnswers) (q : DenoiseRequest) : d.Call a q (d.process a q) := by
  unfold process
  split
  · rename_i hsame
    exact call_processReady (.kept hsame)
  · rename_i hother
    cases hbuild : a.build q.config with
    | ok => exact call_processReady (.rebuilt hother hbuild)
    | error e => exact .unbuilt hother hbuild

/-- Nothing is given again when a frame starts. -/
theorem not_started_of_reused (h : (d.process a q).outcome = .reused) : q.frameStarted = false := by
  have hcall := d.call a q
  generalize d.process a q = step at hcall h
  cases hcall with
  | reused _ hstart _ _ => exact hstart
  | _ => cases h

section Runs

variable {run : DenoiserInput → Except DenoiseError (Array Binary32)}

theorem decideAndRun_congr_run (h : ∀ input ∈ (d.decideAndRun a q built).ran, run input = a.run input) :
    d.decideAndRun { a with run } q built = d.decideAndRun a q built := by
  unfold decideAndRun at h ⊢
  cases hdue : ((d.scheduler.start q.latency a.enteredAt).shouldRun a.decidedAt).2 with
  | false => simp only [hdue, Bool.not_false, if_true]
  | true =>
    simp only [hdue, Bool.not_true, Bool.false_eq_true, if_false] at h ⊢
    cases hactive : d.active with
    | none => rfl
    | some config =>
      simp only [hactive] at h ⊢
      have hsame : run q.input = a.run q.input := h q.input (by cases a.run q.input <;> rfl)
      simp only [hsame]

/-- A request asks the denoiser for nothing but the run that its step reports. -/
theorem process_congr_run (h : ∀ input ∈ (d.process a q).ran, run input = a.run input) :
    d.process { a with run } q = d.process a q := by
  unfold process processReady at h ⊢
  by_cases hsame : d.active = some q.config
  · simp only [if_pos hsame] at h ⊢
    split
    · rfl
    · rename_i hstart
      rw [if_neg hstart] at h
      exact decideAndRun_congr_run h
  · simp only [if_neg hsame] at h ⊢
    cases hbuild : a.build q.config with
    | error e => rfl
    | ok =>
      simp only [hbuild] at h ⊢
      split
      · rfl
      · rename_i hstart
        rw [if_neg hstart] at h
        exact decideAndRun_congr_run h

end Runs

end CachedDenoiser

end ProgressiveFrame
