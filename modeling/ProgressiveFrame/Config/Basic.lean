import ProgressiveFrame.Denoise.Basic
import ProgressiveFrame.Store.Basic
import ProgressiveFrame.Time

/-!
# Configuration

The settings of a receiver, their defaults, and what makes them usable: the version that is
understood, a window of time that is not empty, and room for at least one value in a history.
-/

namespace ProgressiveFrame

/-- The settings of a session. -/
structure SessionSettings where
  resetMode : ResetMode := .preserveColor
  parallelDecode : Bool := true
  /-- The number of threads that decode, 0 for as many as the machine has. -/
  workerThreads : Nat := 0
  /-- The window of time that the message rate is taken over. -/
  fpsWindow : Duration := .ofSeconds 3
deriving DecidableEq

/-- The settings of the denoiser. -/
structure DenoiseSettings where
  engine : DenoiseEngine := .openImageDenoise
  mode : DenoiseMode := .disable
  /-- The number of values in the histories of latency and cost. -/
  history : Nat := 10
deriving DecidableEq

/-- The settings of a receiver. -/
structure Configuration where
  version : Nat := 1
  session : SessionSettings := {}
  denoise : DenoiseSettings := {}
deriving DecidableEq

/-- Why there is no usable configuration. -/
inductive ConfigError where
  /-- The text or its shape is wrong. -/
  | malformed
  /-- The window of time is negative or not a number. -/
  | negativeDuration
  /-- The window of time is too long to be counted, which ends the program at once. -/
  | overlongDuration
  /-- The reader of documents has ended the program. -/
  | brokenReader
  | unsupportedVersion (version : Nat)
  | emptyWindow
  | noHistory
  | missingFile
  | notUtf8
deriving DecidableEq

namespace ConfigError

/-- Whether the error is reported to nobody, because the program has ended. -/
def isAbort : ConfigError → Bool
  | .overlongDuration | .brokenReader => true
  | _ => false

/-- The sentence for an error. -/
def message : ConfigError → String
  | .malformed => "failed to parse configuration"
  | .negativeDuration => "duration must be non-negative"
  | .overlongDuration => "duration too long"
  | .brokenReader => "broken reader"
  | .unsupportedVersion version => s!"invalid configuration: unsupported config version {version}; expected 1"
  | .emptyWindow => "invalid configuration: session.fps_window must be greater than zero"
  | .noHistory => "invalid configuration: denoise.history must be at least 1"
  | .missingFile => "failed to read configuration: No such file or directory (os error 2)"
  | .notUtf8 => "failed to read configuration: stream did not contain valid UTF-8"

end ConfigError

namespace Configuration

/-- The version that is understood. -/
def supportedVersion : Nat := 1

/-- The first thing that makes the settings unusable. -/
def fault? (c : Configuration) : Option ConfigError :=
  if c.version ≠ supportedVersion then some (.unsupportedVersion c.version)
  else if c.session.fpsWindow.nanos = 0 then some .emptyWindow
  else if c.denoise.history = 0 then some .noHistory
  else none

/-- The settings, if they are usable. -/
def validate (c : Configuration) : Except ConfigError Configuration :=
  match c.fault? with
  | some e => .error e
  | none => .ok c

/-- Settings that validation lets pass are usable. -/
theorem validate_eq_ok_iff {c d : Configuration} :
    c.validate = .ok d ↔
      c = d ∧ c.version = supportedVersion ∧ 0 < c.session.fpsWindow.nanos ∧ 0 < c.denoise.history := by
  grind [validate, fault?]

end Configuration

end ProgressiveFrame
