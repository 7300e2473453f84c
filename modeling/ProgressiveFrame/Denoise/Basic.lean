import ProgressiveFrame.Binary32
import ProgressiveFrame.Time

/-!
# Denoising a picture

What an outside denoiser is asked for and how it answers. It is built for a `DenoiserConfig`, takes
a picture of four values for each pixel with up to two guides of three values for each pixel, and
gives a picture back or an error.
-/

namespace ProgressiveFrame

/-- The denoisers to choose from. -/
inductive DenoiseEngine where
  | optix
  | openImageDenoise
deriving DecidableEq

instance : Inhabited DenoiseEngine := ⟨.openImageDenoise⟩

/-- Whether to denoise, and with which guides. -/
inductive DenoiseMode where
  | disable
  | enable
  | enableAlbedo
  | enableNormal
  | enableAlbedoNormal
deriving DecidableEq, Inhabited

namespace DenoiseMode

/-- Whether readouts are denoised. -/
def isEnabled : DenoiseMode → Bool
  | .disable => false
  | _ => true

/-- Whether the albedo is a guide. -/
def wantsAlbedo : DenoiseMode → Bool
  | .enableAlbedo | .enableAlbedoNormal => true
  | _ => false

/-- Whether the normal is a guide. -/
def wantsNormal : DenoiseMode → Bool
  | .enableNormal | .enableAlbedoNormal => true
  | _ => false

end DenoiseMode

/-- What a denoiser is built for. A change of any of it asks for another denoiser. -/
structure DenoiserConfig where
  engine : DenoiseEngine
  width : Nat
  height : Nat
  useAlbedo : Bool
  useNormal : Bool
deriving DecidableEq

/-- Why a denoiser could not be built or gave no picture. -/
inductive DenoiseError where
  | unavailable (reason : String)
  | failed (reason : String)
deriving DecidableEq

/-- The sentence for an error. -/
def DenoiseError.message : DenoiseError → String
  | .unavailable reason => "denoiser unavailable: " ++ reason
  | .failed reason => "denoise failed: " ++ reason

/-- What a denoiser works on. -/
structure DenoiserInput where
  beauty : Array Binary32
  albedo : Option (Array Binary32)
  normal : Option (Array Binary32)
deriving DecidableEq

/-- One request for a denoised picture. -/
structure DenoiseRequest where
  config : DenoiserConfig
  input : DenoiserInput
  /-- How late the latest message was, in seconds. -/
  latency : Binary32
  /-- Whether the picture is the first one of a new frame. -/
  frameStarted : Bool

/-- What became of a request. -/
inductive DenoiseOutcome where
  /-- A run was made for this request. -/
  | denoised
  /-- No run was due, and the previous picture is given again. -/
  | reused
  /-- No run was due, and no previous picture fits; the picture is passed through. -/
  | declined
  /-- A new frame has begun; the picture is passed through. -/
  | skippedFrameStart
  /-- The denoiser could not be built or run; the picture is passed through. -/
  | fallback (error : DenoiseError)
deriving DecidableEq

/-- The answers of the outside world during one request. -/
structure DenoiseAnswers where
  /-- Builds a denoiser. -/
  build : DenoiserConfig → Except DenoiseError Unit
  /-- Runs the denoiser that is in place. -/
  run : DenoiserInput → Except DenoiseError (Array Binary32)
  /-- The clock when the request is entered. -/
  enteredAt : Instant
  /-- The clock when the decision is made. -/
  decidedAt : Instant
  /-- The clock after a run. -/
  finishedAt : Instant

end ProgressiveFrame
