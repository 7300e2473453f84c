import ProgressiveFrame.Denoise.Cached
import ProgressiveFrame.Session.Controller

/-!
# Denoised readouts

A pipeline reads the beauty channel of a controller out and passes it through the denoiser, with
those guides that the mode asks for and that the latest frame start named. A guide has to have
three values for each pixel.
-/

namespace ProgressiveFrame

/-- A denoiser with the choice of what it is asked for. -/
structure DenoisePipeline where
  denoiser : CachedDenoiser
  engine : DenoiseEngine
  mode : DenoiseMode

/-- What a denoised readout gives. -/
structure PipelineReadout where
  readout : Readout
  /-- The step of the denoiser, none when denoising is switched off. -/
  step : Option DenoiseStep

namespace DenoisePipeline

variable {μ : Type}

/-- A pipeline that has answered no request. -/
def new (engine : DenoiseEngine) (mode : DenoiseMode) (history : Nat) : DenoisePipeline := ⟨.new history, engine, mode⟩

/-- The readout of a guide, if it is wanted, named and of three values for each pixel. -/
def guide (c : Controller μ) (wanted : Bool) (name : String) (o : Orientation) : Controller μ × Option Readout :=
  if wanted && name != "" then
    match c.readout (.aovName name) o none with
    | (c, .ok r) => (c, if r.numChan = 3 then some r else none)
    | (c, .error _) => (c, none)
  else (c, none)

/-- The request for a picture with its guides. -/
def request (p : DenoisePipeline) (c : Controller μ) (beauty : Readout) (albedo normal : Option Readout) :
    DenoiseRequest where
  config := ⟨p.engine, beauty.width, beauty.height, albedo.isSome, normal.isSome⟩
  input := ⟨beauty.data, albedo.map (·.data), normal.map (·.data)⟩
  latency := c.session.latency
  frameStarted := c.session.status == some .started

/-- Reads the beauty channel out and denoises it. The answers of the outside world may depend on
the input that a denoiser is run on. -/
def readout (p : DenoisePipeline) (answers : DenoiseAnswers) (c : Controller μ) (o : Orientation) :
    DenoisePipeline × Controller μ × Except FrameError PipelineReadout :=
  match c.readout (.channel .beauty) o none with
  | (c, .error e) => (p, c, .error e)
  | (c, .ok beauty) =>
    if !p.mode.isEnabled then (p, c, .ok ⟨beauty, none⟩)
    else
      let (c, albedo) := guide c p.mode.wantsAlbedo c.session.albedoInput o
      let (c, normal) := guide c p.mode.wantsNormal c.session.normalInput o
      let step := p.denoiser.process answers (p.request c beauty albedo normal)
      ({ p with denoiser := step.next }, c, .ok ⟨{ beauty with data := step.data }, some step⟩)

end DenoisePipeline

end ProgressiveFrame
