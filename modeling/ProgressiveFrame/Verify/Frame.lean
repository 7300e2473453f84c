import ProgressiveFrame.Image.Dump

/-!
# The dumps of a frame

For one feedback frame the merger and each render machine dump images with their ray counts. Each
dump has a file name that tells the frame, the machine, what the image shows and its format.

* `DumpKey.fileName`: the name of a file.
* `FrameDumps.load`: all dumps of a frame, read from a directory.
-/

namespace ProgressiveFrame

/-- An image and the ray counts of its pixels. -/
structure SampledImage where
  beauty : RgbImage
  numSample : RgbImage
deriving DecidableEq

namespace SampledImage

/-- The black image of no rays. -/
def zero (width height : Nat) : SampledImage := ⟨.black width height, .black width height⟩

/-- Whether colours and counts are both the same. -/
def isSame (i j : SampledImage) : Bool := i.beauty.isSame j.beauty && i.numSample.isSame j.numSample

/-- Accumulates another image of the same size. -/
def merge (acc i : SampledImage) : Except FrameError SampledImage := do
  let (beauty, numSample) ← acc.beauty.mergeInto acc.numSample i.beauty i.numSample
  return ⟨beauty, numSample⟩

end SampledImage

/-- What a machine dumped for a frame. -/
structure MachineDumps where
  machine : Nat
  /-- The image that the merger sent to the machine. -/
  feedback : SampledImage
  /-- That image as the machine decoded it. -/
  decoded : SampledImage
  /-- The machine's own contribution. -/
  merged : SampledImage
  /-- The image of all other machines. -/
  minusOne : SampledImage

/-- All dumps of a frame. -/
structure FrameDumps where
  mergeAll : SampledImage
  /-- The image of each machine as the merger has it, by the number of the machine. -/
  merge : List SampledImage
  machines : List MachineDumps

/-! ## File names -/

/-- Which image of a machine a dump holds. -/
inductive Stage where
  | feedback
  | decoded
  | merged
  | minusOne
deriving DecidableEq

/-- The end of the name of a machine's dump. -/
def Stage.suffix : Stage → String
  | .feedback => "feedback"
  | .decoded => "decoded"
  | .merged => "merged"
  | .minusOne => "minusOne"

/-- Which image of a frame a dump holds. -/
inductive DumpSource where
  /-- The merger's image of all machines. -/
  | mergeAll
  /-- The merger's image of one machine. -/
  | merge (machine : Nat)
  | machine (machine : Nat) (stage : Stage)
deriving DecidableEq

/-- Everything that the name of a dump tells. -/
structure DumpKey where
  frame : Nat
  source : DumpSource
  kind : ImageKind
  format : DumpFormat
deriving DecidableEq

/-- The word for a kind of image in file names. -/
def ImageKind.label : ImageKind → String
  | .beauty => "beauty"
  | .numSample => "beautyNumSample"

/-- The decimal text of a number. -/
private def number (n : Nat) : String := String.ofList (Text.decimal n)

/-- The name of the file of a dump. -/
def DumpKey.fileName (k : DumpKey) : String :=
  let stem := match k.source with
    | .mergeAll => "mergeAll_fId" ++ number k.frame ++ "_" ++ k.kind.label
    | .merge m => "merge_fId" ++ number k.frame ++ "_mId" ++ number m ++ "_" ++ k.kind.label
    | .machine m stage =>
      "mcrt_fId" ++ number k.frame ++ "_mId" ++ number m ++ "_" ++ k.kind.label ++ "_" ++ stage.suffix
  stem ++ "." ++ k.format.extension

/-- The path of a file in a directory, where the empty text is the current one. -/
def joinPath (dir name : String) : String :=
  if dir.isEmpty then name
  else if dir.endsWith "/" then dir ++ name
  else dir ++ "/" ++ name

/-- The path of a dump in a directory. -/
def DumpKey.path (k : DumpKey) (dir : String) : String := joinPath dir k.fileName

/-! ## Loading -/

/-- Which file could not be read, and why. -/
structure LoadError where
  path : String
  cause : DumpError
deriving DecidableEq

/-- The sentence for an error. -/
def LoadError.message (e : LoadError) : String := "failed to read " ++ e.path ++ ": " ++ e.cause.message

/-- The image that a file holds, if there is a file. -/
def DumpKey.image (k : DumpKey) : Option ByteArray → Except DumpError RgbImage
  | none => .error .missingFile
  | some bytes => RgbImage.ofDump k.kind k.format bytes

section Load

variable {m : Type → Type} [Monad m]

/-- Reads one dump; a file that is missing has no content. -/
def DumpKey.load (readFile : String → m (Option ByteArray)) (dir : String) (k : DumpKey) :
    ExceptT LoadError m RgbImage := do
  let content ← readFile (k.path dir)
  match k.image content with
  | .ok i => return i
  | .error cause => throw ⟨k.path dir, cause⟩

/-- Reads an image and then its ray counts. -/
def SampledImage.load (readFile : String → m (Option ByteArray)) (dir : String) (frame : Nat) (format : DumpFormat)
    (source : DumpSource) : ExceptT LoadError m SampledImage := do
  let beauty ← DumpKey.load readFile dir ⟨frame, source, .beauty, format⟩
  let numSample ← DumpKey.load readFile dir ⟨frame, source, .numSample, format⟩
  return ⟨beauty, numSample⟩

/-- Reads the dumps of a machine. -/
def MachineDumps.load (readFile : String → m (Option ByteArray)) (dir : String) (frame : Nat) (format : DumpFormat)
    (machine : Nat) : ExceptT LoadError m MachineDumps := do
  let stage (s : Stage) := SampledImage.load readFile dir frame format (.machine machine s)
  let feedback ← stage .feedback
  let decoded ← stage .decoded
  let merged ← stage .merged
  let minusOne ← stage .minusOne
  return ⟨machine, feedback, decoded, merged, minusOne⟩

/-- Collects what an action gives for `count` numbers from `first` on. -/
def collectFrom {α : Type} (action : Nat → ExceptT LoadError m α) : Nat → Nat → ExceptT LoadError m (List α)
  | 0, _ => return []
  | count + 1, first => do
    let a ← action first
    let rest ← collectFrom action count (first + 1)
    return a :: rest

/-- Reads the dumps of a frame with so many machines, up to the first that cannot be read. -/
def FrameDumps.load (readFile : String → m (Option ByteArray)) (dir : String) (machines frame : Nat)
    (format : DumpFormat) : ExceptT LoadError m FrameDumps := do
  let mergeAll ← SampledImage.load readFile dir frame format .mergeAll
  let merge ← collectFrom (fun i => SampledImage.load readFile dir frame format (.merge i)) machines 0
  let machines ← collectFrom (MachineDumps.load readFile dir frame format) machines 0
  return ⟨mergeAll, merge, machines⟩

end Load

end ProgressiveFrame
