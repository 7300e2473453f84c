import ProgressiveFrame.Proofs.Denoise.Calls

/-!
# Where denoised pictures come from

A denoiser answers requests one after another, and a picture that it gives again may be old. The memory has no
note of how old: that no frame has started since follows from the pacing, which forgets its costs at each frame
start and at each change of the denoiser.

* `DenoiseRun`: a denoiser with a record of each request that it has answered.
* `DenoiseRecord.IsSource`: the latest run that succeeded, with all that has happened since.
* `DenoiseRun.Sourced`: as long as there is a cost to wait for, the remembered picture has a source. Every request
  keeps this (`Sourced.next`), so it holds after every run (`DenoiseRun.sourced_ofCalls`).
* `DenoiseRun.accounted_ofCalls`: what each request of a run gives, and from where.
-/

namespace ProgressiveFrame

/-! ## Records -/

/-- What is recorded of a request. -/
structure DenoiseRecord where
  request : DenoiseRequest
  answers : DenoiseAnswers
  step : DenoiseStep

namespace DenoiseRecord

/-- The record of a request that a denoiser answers. -/
def of (d : CachedDenoiser) (request : DenoiseRequest) (answers : DenoiseAnswers) : DenoiseRecord :=
  ⟨request, answers, d.process answers request⟩

/-- The picture that the outside denoiser gave for the request, if it was run and succeeded. -/
def output? (r : DenoiseRecord) : Option (Array Binary32) :=
  r.step.ran.bind fun input => (r.answers.run input).toOption

/-- The request left the latest picture of a denoiser for `config` the latest one: no run succeeded, no frame
started and no denoiser was to be built. -/
structure Keeps (config : DenoiserConfig) (r : DenoiseRecord) : Prop where
  config_eq : r.request.config = config
  output?_eq : r.output? = none
  not_started : r.request.frameStarted = false
  not_built : r.step.built = none

/-- A picture was denoised for the request `source`, and all `later` requests left it the latest one. -/
structure IsSource (config : DenoiserConfig) (picture : Array Binary32) (later : List DenoiseRecord)
    (source : DenoiseRecord) : Prop where
  config_eq : source.request.config = config
  not_started : source.request.frameStarted = false
  output?_eq : source.output? = some picture
  since : ∀ r ∈ later, r.Keeps config

/-- One request more that keeps the latest picture. -/
theorem IsSource.cons {config : DenoiserConfig} {picture : Array Binary32} {later : List DenoiseRecord}
    {source r : DenoiseRecord} (h : source.IsSource config picture later) (hr : r.Keeps config) :
    source.IsSource config picture (r :: later) :=
  { h with since := List.forall_mem_cons.mpr ⟨hr, h.since⟩ }

end DenoiseRecord

/-- A denoiser that hands its input on. The request comes at a time in milliseconds, and a run takes 50. -/
def DenoiseAnswers.copying (millis : Nat) : DenoiseAnswers where
  build _ := .ok ()
  run input := .ok input.beauty
  enteredAt := ⟨millis * 1000000⟩
  decidedAt := ⟨millis * 1000000⟩
  finishedAt := ⟨(millis + 50) * 1000000⟩

/-- A denoiser with what it has been asked, the newest request first. -/
structure DenoiseRun where
  denoiser : CachedDenoiser
  history : List DenoiseRecord

namespace DenoiseRun

/-- The run with one request more. -/
def next (r : DenoiseRun) (q : DenoiseRequest) (a : DenoiseAnswers) : DenoiseRun :=
  ⟨(r.denoiser.process a q).next, .of r.denoiser q a :: r.history⟩

/-- The run of requests to a new denoiser. -/
def ofCalls (history : Nat) (calls : List (DenoiseRequest × DenoiseAnswers)) : DenoiseRun :=
  calls.foldl (fun r call => r.next call.1 call.2) ⟨.new history, []⟩

/-! ## The source of the latest picture -/

/-- There is a source among the records. -/
def HasSource (config : DenoiserConfig) (picture : Array Binary32) (h : List DenoiseRecord) : Prop :=
  ∃ later source earlier, h = later ++ source :: earlier ∧ DenoiseRecord.IsSource config picture later source

theorem HasSource.cons {config : DenoiserConfig} {picture : Array Binary32} {h : List DenoiseRecord}
    {r : DenoiseRecord} (hs : HasSource config picture h) (hr : r.Keeps config) :
    HasSource config picture (r :: h) := by
  obtain ⟨later, source, earlier, rfl, hsource⟩ := hs
  exact ⟨r :: later, source, earlier, rfl, hsource.cons hr⟩

/-- While there is a cost to wait for, the remembered picture is the latest one of the denoiser that is in place. -/
def Sourced (d : CachedDenoiser) (h : List DenoiseRecord) : Prop :=
  d.scheduler.cost.isEmpty = false → ∃ config, d.active = some config ∧ HasSource config d.lastOutput h

variable {d : CachedDenoiser} {h : List DenoiseRecord} {a : DenoiseAnswers} {q : DenoiseRequest}

theorem sourced_of_cost_isEmpty (hcost : d.scheduler.cost.isEmpty = true) : Sourced d h :=
  fun hne => absurd hcost (Bool.eq_false_iff.mp hne)

/-- When no run is due, the remembered picture has a source. -/
theorem Sourced.hasSource (hs : Sourced d h) (hsame : d.active = some q.config)
    (hdue : (d.decision a q).2 = false) : HasSource q.config d.lastOutput h := by
  have hcost : d.scheduler.cost.isEmpty = false := by
    rw [← Bool.not_eq_true]
    intro hempty
    rw [CachedDenoiser.due_of_cost_isEmpty hempty] at hdue
    cases hdue
  obtain ⟨config, hactive, hsource⟩ := hs hcost
  rw [hsame, Option.some.injEq] at hactive
  exact hactive ▸ hsource

/-- A request whose denoiser was kept and whose run did not succeed keeps the source. -/
theorem Sourced.keep (hs : Sourced d h) {d' : CachedDenoiser} {r : DenoiseRecord}
    (hactive : d'.active = d.active) (hcost : d'.scheduler.cost = d.scheduler.cost)
    (houtput : d'.lastOutput = d.lastOutput) (hr : ∀ config, d.active = some config → r.Keeps config) :
    Sourced d' (r :: h) := by
  intro hne
  rw [hcost] at hne
  obtain ⟨config, hconfig, hsource⟩ := hs hne
  exact ⟨config, hactive.trans hconfig, houtput ▸ hsource.cons (hr config hconfig)⟩

/-- Every request keeps the source known. -/
theorem Sourced.next (hs : Sourced d h) (a : DenoiseAnswers) (q : DenoiseRequest) :
    Sourced (d.process a q).next (.of d q a :: h) := by
  have hcall := d.call a q
  unfold DenoiseRecord.of
  generalize d.process a q = step at hcall
  cases hcall with
  -- The picture stays in the memory over a frame start, but the pacing is new, and no run waits for it.
  | unbuilt _ _ => exact sourced_of_cost_isEmpty rfl
  | skipped _ _ => exact sourced_of_cost_isEmpty rfl
  | reused hsame hstart _ _ | declined hsame hstart _ _ =>
    refine hs.keep rfl (CachedDenoiser.cost_decision ..) rfl fun config hconfig => ?_
    exact ⟨Option.some.inj (hsame.symm.trans hconfig), rfl, hstart, rfl⟩
  | denoised hp hstart _ hrun =>
    refine fun _ => ⟨q.config, hp.active, [], _, h, rfl, rfl, hstart, ?_, List.forall_mem_nil _⟩
    simp only [DenoiseRecord.output?, Option.bind_some, hrun, Except.toOption]
  | failed hp hstart _ hrun =>
    -- A new denoiser has no cost yet. One that was kept has the costs of the runs before this one.
    cases hp with
    | rebuilt _ _ => exact sourced_of_cost_isEmpty (congrArg RollingWindow.isEmpty (CachedDenoiser.cost_decision ..))
    | kept hsame =>
      refine hs.keep rfl (CachedDenoiser.cost_decision ..) rfl fun config hconfig => ?_
      refine ⟨Option.some.inj (hsame.symm.trans hconfig), ?_, hstart, rfl⟩
      simp only [DenoiseRecord.output?, Option.bind_some, hrun, Except.toOption]

theorem sourced_new (history : Nat) : Sourced (.new history) [] := sourced_of_cost_isEmpty rfl

theorem sourced_foldl {r : DenoiseRun} (hs : Sourced r.denoiser r.history)
    (calls : List (DenoiseRequest × DenoiseAnswers)) :
    let run := calls.foldl (fun r call => r.next call.1 call.2) r
    Sourced run.denoiser run.history := by
  induction calls generalizing r with
  | nil => exact hs
  | cons call calls ih => exact ih (r := r.next call.1 call.2) (hs.next call.2 call.1)

/-- After every run the source is known. -/
theorem sourced_ofCalls (history : Nat) (calls : List (DenoiseRequest × DenoiseAnswers)) :
    Sourced (ofCalls history calls).denoiser (ofCalls history calls).history :=
  sourced_foldl (r := ⟨.new history, []⟩) (sourced_new history) calls

/-! ## What a request gives -/

/-- What the step of a request gives, and from where. -/
structure Accounted (d : CachedDenoiser) (h : List DenoiseRecord) (a : DenoiseAnswers) (q : DenoiseRequest)
    (step : DenoiseStep) : Prop where
  /-- The outside denoiser is run at most once, on the input of the request. -/
  ran : step.ran = none ∨ step.ran = some q.input
  /-- Of what the outside denoiser would answer, the step depends on nothing but its answer to that run. -/
  process_eq : ∀ run, (∀ input ∈ step.ran, run input = a.run input) → d.process { a with run } q = step
  not_run_at_start : q.frameStarted = true → step.ran = none
  passed : (step.outcome = .skippedFrameStart ∨ step.outcome = .declined ∨ ∃ e, step.outcome = .fallback e) →
    step.data = q.input.beauty
  denoised : step.outcome = .denoised → step.ran = some q.input ∧ a.run q.input = .ok step.data
  reused : step.outcome = .reused → step.ran = none ∧ step.built = none ∧ HasSource q.config step.data h ∧
    step.data.size = q.input.beauty.size

theorem Sourced.accounted (hs : Sourced d h) (a : DenoiseAnswers) (q : DenoiseRequest) :
    Accounted d h a q (d.process a q) := by
  have hasked (run) (h : ∀ input ∈ (d.process a q).ran, run input = a.run input) :
      d.process { a with run } q = d.process a q := CachedDenoiser.process_congr_run h
  have hcall := d.call a q
  generalize d.process a q = step at hcall hasked
  cases hcall with
  | unbuilt _ _ => exact ⟨.inl rfl, hasked, fun _ => rfl, fun _ => rfl, nofun, nofun⟩
  | skipped _ _ => exact ⟨.inl rfl, hasked, fun _ => rfl, fun _ => rfl, nofun, nofun⟩
  | reused hsame _ hdue hsize =>
    refine ⟨.inl rfl, hasked, fun _ => rfl, ?_, nofun, fun _ => ⟨rfl, rfl, hs.hasSource hsame hdue, hsize⟩⟩
    rintro (h | h | ⟨_, h⟩) <;> cases h
  | declined _ _ _ _ => exact ⟨.inl rfl, hasked, fun _ => rfl, fun _ => rfl, nofun, nofun⟩
  | denoised _ hstart _ hrun =>
    refine ⟨.inr rfl, hasked, fun h => ?_, ?_, fun _ => ⟨rfl, hrun⟩, nofun⟩
    · exact absurd (h.symm.trans hstart) nofun
    · rintro (h | h | ⟨_, h⟩) <;> cases h
  | failed _ hstart _ _ =>
    refine ⟨.inr rfl, hasked, fun h => ?_, fun _ => rfl, nofun, nofun⟩
    exact absurd (h.symm.trans hstart) nofun

/-- Every request of every run is accounted for: a picture that is given is that of the request, or the outside
denoiser made it of the request, or it is the latest one that it made, for the same configuration and since the
latest frame start and the latest building. -/
theorem accounted_ofCalls (history : Nat) (calls : List (DenoiseRequest × DenoiseAnswers)) (q : DenoiseRequest)
    (a : DenoiseAnswers) :
    let run := ofCalls history calls
    Accounted run.denoiser run.history a q (run.denoiser.process a q) :=
  (sourced_ofCalls history calls).accounted a q

/-- A picture of one pixel is denoised, and given again 30 milliseconds after the run. -/
example :
    let q : DenoiseRequest := ⟨⟨.optix, 1, 1, false, false⟩, ⟨#[.one, .one, .one, .one], none, none⟩, .zero, false⟩
    let run := ofCalls DenoiseScheduler.defaultHistory [(q, .copying 0)]
    (run.denoiser.process (.copying 80) q).outcome = .reused := by
  decide +kernel

end DenoiseRun

end ProgressiveFrame
