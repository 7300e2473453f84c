import ProgressiveFrame.Denoise.Basic
import ProgressiveFrame.Schedule.Basic

/-!
# A denoiser with a memory

Building a denoiser is expensive, and so is a run. `CachedDenoiser.process` keeps the denoiser that
was built last, as long as requests ask for the same configuration, and the picture that was
denoised last, which it gives again when the scheduler declines a run.

A step reports, beside its result, the configuration that a denoiser was built for and the input
that one was run on (`DenoiseStep.built`, `DenoiseStep.ran`).
-/

namespace ProgressiveFrame

/-- A denoiser with the memory of its latest picture, of its pacing and of its latest error. -/
structure CachedDenoiser where
  /-- The configuration that a denoiser is in place for. -/
  active : Option DenoiserConfig
  scheduler : DenoiseScheduler Binary32
  /-- The latest denoised picture, empty before the first one. -/
  lastOutput : Array Binary32
  /-- The latest error that nobody has taken. -/
  lastError : Option String

/-- The result of one request. -/
structure DenoiseStep where
  next : CachedDenoiser
  data : Array Binary32
  outcome : DenoiseOutcome
  /-- The configuration that a denoiser was asked to be built for. -/
  built : Option DenoiserConfig
  /-- The input that a denoiser was run on. -/
  ran : Option DenoiserInput

namespace CachedDenoiser

/-- Nothing built and nothing remembered. -/
def new (history : Nat) : CachedDenoiser := ⟨none, .new history, #[], none⟩

/-- Whether a denoiser is in place. -/
def isReady (d : CachedDenoiser) : Bool := d.active.isSome

/-- The error that nobody has taken, which is then forgotten. -/
def takeError (d : CachedDenoiser) : CachedDenoiser × Option String := ({ d with lastError := none }, d.lastError)

/-- The sentence that is kept when a denoiser could not be built. -/
def setupMessage (e : DenoiseError) : String := e.message ++ " : fall back to non-denoised output"

/-- The memory when another denoiser is to be built: the old one, its picture and its pacing are
dropped. -/
def dismantled (d : CachedDenoiser) : CachedDenoiser :=
  { d with active := none, lastOutput := #[], scheduler := d.scheduler.reset }

/-- The step that passes the picture of a request through. -/
def passThrough (d : CachedDenoiser) (request : DenoiseRequest) (outcome : DenoiseOutcome)
    (built : Option DenoiserConfig) (ran : Option DenoiserInput) : DenoiseStep :=
  ⟨d, request.input.beauty, outcome, built, ran⟩

/-- Decides on a run and makes it, with a denoiser in place. -/
def decideAndRun (d : CachedDenoiser) (answers : DenoiseAnswers) (request : DenoiseRequest)
    (built : Option DenoiserConfig) : DenoiseStep :=
  let (scheduler, due) := (d.scheduler.start request.latency answers.enteredAt).shouldRun answers.decidedAt
  if !due then
    let d := { d with scheduler := scheduler.abandon }
    if d.lastOutput.size = request.input.beauty.size then ⟨d, d.lastOutput, .reused, built, none⟩
    else d.passThrough request .declined built none
  else match d.active with
    | none => { d with scheduler }.passThrough request (.fallback (.unavailable "no denoiser")) built none
    | some _ =>
      match answers.run request.input with
      | .ok output =>
        let d := { d with scheduler := scheduler.finish answers.finishedAt, lastOutput := output }
        ⟨d, output, .denoised, built, some request.input⟩
      | .error e =>
        let d := { d with scheduler := scheduler.abandon, lastError := some e.message }
        d.passThrough request (.fallback e) built (some request.input)

/-- Goes on with a request once the denoiser it asks for is in place. -/
def processReady (d : CachedDenoiser) (answers : DenoiseAnswers) (request : DenoiseRequest)
    (built : Option DenoiserConfig) : DenoiseStep :=
  if request.frameStarted then
    { d with scheduler := d.scheduler.reset }.passThrough request .skippedFrameStart built none
  else d.decideAndRun answers request built

/-- Answers a request. -/
def process (d : CachedDenoiser) (answers : DenoiseAnswers) (request : DenoiseRequest) : DenoiseStep :=
  if d.active = some request.config then d.processReady answers request none
  else
    let built := some request.config
    match answers.build request.config with
    | .ok () => { d.dismantled with active := built }.processReady answers request built
    | .error e => { d.dismantled with lastError := some (setupMessage e) }.passThrough request (.fallback e) built none

end CachedDenoiser

end ProgressiveFrame
