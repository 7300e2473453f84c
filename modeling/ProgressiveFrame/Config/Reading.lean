import ProgressiveFrame.Config.Basic
import ProgressiveFrame.Time.Seconds

/-!
# Reading configurations

A configuration is written as a document. A library reads it up to the settings that it gives, and hands the value of
the window of time on; another library reads lengths of time in words. Neither of them is defined here: what they come
to is given from outside (`ConfigLibraries`).

* `WindowValue.duration`: the length of time that a value is. A value is a text, a whole number or a decimal one.
* `GivenSettings.configuration`: settings that are not given are as they are by default.
* `ConfigReading.load`: what comes of a text, by what the reader of documents makes of it.
-/

namespace ProgressiveFrame

/-! ## The window of time -/

/-- The value that stands for the window of time. -/
inductive WindowValue where
  | text (s : String)
  | int (n : Int)
  | float (x : Float)
  /-- A value of a kind that no length of time has. -/
  | other

/-- The length of time that a value is, in seconds where it is a number. The texts are read by `parse`. -/
def WindowValue.duration (parse : String → Except DurationFault Duration) : WindowValue → Except DurationFault Duration
  | .text s => parse s
  | .int n => if n < 0 then .error .negative else .ok (.ofSeconds n.toNat)
  | .float x =>
    if x.isNaN || hasNegativeSign x then .error .negative
    else match Duration.ofFloat? x with
      | some d => .ok d
      | none => .error .overlong
  | .other => .error .refused

/-! ## Settings -/

/-- The settings of a session that a document gives, but for the window of time. -/
structure GivenSession where
  resetMode : Option ResetMode := none
  parallelDecode : Option Bool := none
  workerThreads : Option Nat := none

/-- The settings of a session with those that are given. -/
def GivenSession.settings (g : GivenSession) (window : Option Duration) : SessionSettings :=
  let default : SessionSettings := {}
  { resetMode := g.resetMode.getD default.resetMode
    parallelDecode := g.parallelDecode.getD default.parallelDecode
    workerThreads := g.workerThreads.getD default.workerThreads
    fpsWindow := window.getD default.fpsWindow }

/-- The settings of the denoiser that a document gives. -/
structure GivenDenoise where
  engine : Option DenoiseEngine := none
  mode : Option DenoiseMode := none
  history : Option Nat := none

/-- The settings of the denoiser with those that are given. -/
def GivenDenoise.settings (g : GivenDenoise) : DenoiseSettings :=
  let default : DenoiseSettings := {}
  { engine := g.engine.getD default.engine
    mode := g.mode.getD default.mode
    history := g.history.getD default.history }

/-- The settings that a document gives, but for the window of time. The version has to be given. -/
structure GivenSettings where
  version : Nat
  session : GivenSession := {}
  denoise : GivenDenoise := {}

/-- The configuration with the settings that are given. -/
def GivenSettings.configuration (g : GivenSettings) (window : Option Duration) : Configuration :=
  ⟨g.version, g.session.settings window, g.denoise.settings⟩

/-! ## Documents -/

/-- What the reader of documents makes of a text. -/
inductive ConfigReading where
  /-- The text or its shape is wrong. -/
  | refused
  /-- It gives settings, and no window of time. -/
  | settings (g : GivenSettings)
  /-- The reader comes to the window of time, which a document gives only once, and hands its value on. If that is taken
  for a length of time it reads on, up to the other settings or to something that is wrong. -/
  | window (v : WindowValue) (rest : Option GivenSettings)
  /-- The reader ends the program. -/
  | broken

/-- The error for a value that is no length of time. -/
def DurationFault.inConfig : DurationFault → ConfigError
  | .refused => .malformed
  | .negative => .negativeDuration
  | .overlong => .overlongDuration

namespace ConfigReading

/-- The configuration that has been read, if it is usable. -/
def load (parse : String → Except DurationFault Duration) : ConfigReading → Except ConfigError Configuration
  | .refused => .error .malformed
  | .settings g => (g.configuration none).validate
  | .window v rest =>
    match v.duration parse with
    | .error e => .error e.inConfig
    | .ok d =>
      match rest with
      | none => .error .malformed
      | some g => (g.configuration (some d)).validate
  | .broken => .error .brokenReader

end ConfigReading

/-- The libraries that configurations are read with. -/
structure ConfigLibraries where
  /-- The reader of TOML documents, with the records of settings that it is told to read. -/
  readToml : String → ConfigReading
  /-- The reader of lengths of time such as `1m 30s`. -/
  parseDuration : String → Except DurationFault Duration

namespace ConfigLibraries

/-- The usable configuration that a TOML text writes. -/
def ofToml (libs : ConfigLibraries) (s : String) : Except ConfigError Configuration :=
  (libs.readToml s).load libs.parseDuration

/-- The usable configuration of a file, which is missing or has a content. -/
def ofFile (libs : ConfigLibraries) (content : Option ByteArray) : Except ConfigError Configuration :=
  match content with
  | none => .error .missingFile
  | some bytes =>
    match String.fromUTF8? bytes with
    | none => .error .notUtf8
    | some s => libs.ofToml s

end ConfigLibraries

end ProgressiveFrame
