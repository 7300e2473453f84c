import ProgressiveFrame.Config.Reading
import ProgressiveFrame.Document.Json
import ProgressiveFrame.Document.Toml
import ProgressiveFrame.Document.Duration

/-!
# Configuration files

The readers that the running program loads configurations with (`ConfigLibraries.readers`), for the records that a
configuration is written as, in TOML or in JSON. What is proved of loading holds of all readers and rests on none of
these.

A document is gone through twice: once to the window of time, whose value is handed on, and once past it.
-/

namespace ProgressiveFrame

/-- The names of the ways to begin a frame. -/
def ResetMode.names : List (String × ResetMode) := [("full", .full), ("preserve-color", .preserveColor)]

/-- The names of the denoisers. -/
def DenoiseEngine.names : List (String × DenoiseEngine) :=
  [("optix", .optix), ("open-image-denoise", .openImageDenoise)]

/-- The names of the modes. -/
def DenoiseMode.names : List (String × DenoiseMode) :=
  [("disable", .disable), ("enable", .enable), ("enable-albedo", .enableAlbedo),
    ("enable-normal", .enableNormal), ("enable-albedo-normal", .enableAlbedoNormal)]

/-- The value that a tree in the place of the window of time has. -/
def WindowValue.ofTree : Tree → WindowValue
  | .text s => .text s
  | .int n => .int n
  | .float x => .float x
  | _ => .other

namespace GivenSession

/-- The names of the fields, in order. -/
def fields : List String := ["reset_mode", "parallel_decode", "worker_threads", "fps_window"]

/-- Reads one field. -/
def read (d : Dialect) (window : Tree.Decoder Unit) (g : GivenSession) (name : String) (t : Tree) :
    Except DocumentFault GivenSession := do
  match name with
  | "reset_mode" => return { g with resetMode := some (← t.asChoice d ResetMode.names) }
  | "parallel_decode" => return { g with parallelDecode := some (← t.asBool) }
  | "worker_threads" => return { g with workerThreads := some (← t.asWord 64) }
  | _ =>
    window t
    return g

/-- Reads the settings of a session. -/
def decode (d : Dialect) (window : Tree.Decoder Unit) : Tree.Decoder GivenSession := fun t =>
  t.asRecord d fields {} (read d window)

end GivenSession

namespace GivenDenoise

/-- The names of the fields, in order. -/
def fields : List String := ["engine", "mode", "history"]

/-- Reads one field. -/
def read (d : Dialect) (g : GivenDenoise) (name : String) (t : Tree) : Except DocumentFault GivenDenoise := do
  match name with
  | "engine" => return { g with engine := some (← t.asChoice d DenoiseEngine.names) }
  | "mode" => return { g with mode := some (← t.asChoice d DenoiseMode.names) }
  | _ => return { g with history := some (← t.asWord 64) }

/-- Reads the settings of the denoiser. -/
def decode (d : Dialect) : Tree.Decoder GivenDenoise := fun t => t.asRecord d fields {} (read d)

end GivenDenoise

namespace GivenSettings

/-- The names of the fields, in order. -/
def fields : List String := ["version", "session", "denoise"]

/-- The fields that have been read. -/
structure Partial where
  version : Option Nat := none
  session : GivenSession := {}
  denoise : GivenDenoise := {}

/-- Reads one field. -/
def Partial.read (d : Dialect) (window : Tree.Decoder Unit) (p : Partial) (name : String) (t : Tree) :
    Except DocumentFault Partial := do
  match name with
  | "version" => return { p with version := some (← t.asWord 32) }
  | "session" => return { p with session := ← GivenSession.decode d window t }
  | _ => return { p with denoise := ← GivenDenoise.decode d t }

/-- Reads the settings of a configuration. The window of time goes to a reader of its own. -/
def decode (d : Dialect) (window : Tree.Decoder Unit) : Tree.Decoder GivenSettings := fun t => do
  let p ← t.asRecord d fields {} (Partial.read d window)
  return ⟨← required p.version, p.session, p.denoise⟩

end GivenSettings

/-- What a document comes to that is read by `decode`. -/
def ConfigReading.ofDocument (decode : Tree.Decoder Unit → Except DocumentFault GivenSettings) : ConfigReading :=
  match decode fun t => .error (.handedOn t) with
  | .ok g => .settings g
  | .error .malformed => .refused
  | .error (.handedOn t) => .window (.ofTree t) (decode fun _ => .ok ()).toOption

/-- The readers of the running program. -/
def ConfigLibraries.readers : ConfigLibraries where
  readToml s := .ofDocument fun window => Toml.decode (GivenSettings.decode Toml.dialect window) s
  parseDuration := Duration.ofText

namespace Configuration

/-- The usable configuration that a TOML text writes. -/
def ofToml (s : String) : Except ConfigError Configuration := ConfigLibraries.readers.ofToml s

/-- The usable configuration that a JSON text writes. -/
def ofJson (s : String) : Except ConfigError Configuration :=
  (ConfigReading.ofDocument fun window => Json.decode (GivenSettings.decode Json.dialect window) s).load Duration.ofText

/-- The usable configuration of a file, which is missing or has a content. -/
def ofFile (content : Option ByteArray) : Except ConfigError Configuration := ConfigLibraries.readers.ofFile content

end Configuration

end ProgressiveFrame
