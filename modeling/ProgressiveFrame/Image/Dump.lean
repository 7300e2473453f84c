import ProgressiveFrame.Image.Basic
import ProgressiveFrame.Image.Quantize
import ProgressiveFrame.Text.Blank
import ProgressiveFrame.Text.Numeral

/-!
# Image dumps

An image is dumped as text in one of two formats. Both start with a word that names the format and
with the size; then come three words for each pixel, the top row first.

* The plain pixel map (`DumpFormat.ppm`) has words of eight-bit codes.
* The float dump (`DumpFormat.fbd`) has words of eight hexadecimal digits, the bytes of a number in
  order of rising significance.

A colour is dumped component by component. A ray count is dumped as the count itself, the count
as a share of the greatest one, and zero; only the first of the three is read back.

* `RgbImage.dump`: the text of an image.
* `RgbImage.ofDump`: the image of a text, or the first thing that is wrong with it.
-/

namespace ProgressiveFrame

/-- The two text formats. -/
inductive DumpFormat where
  | ppm
  | fbd
deriving DecidableEq, Inhabited

namespace DumpFormat

/-- The ending of file names. -/
def extension : DumpFormat → String
  | .ppm => "ppm"
  | .fbd => "fbd"

/-- The first word of a dump. -/
def magic : DumpFormat → List Char
  | .ppm => ['P', '3']
  | .fbd => ['F', 'b', 'D', 'u', 'm', 'p']

end DumpFormat

/-- What the colours of an image mean. -/
inductive ImageKind where
  | beauty
  /-- The red component is the number of rays of the pixel. -/
  | numSample
deriving DecidableEq, Inhabited

/-- The names of the kinds. -/
def ImageKind.names : List (String × ImageKind) := [("beauty", .beauty), ("num-sample", .numSample)]

/-- A direction of the image plane. -/
inductive Axis where
  | width
  | height
deriving DecidableEq

/-- What is wrong with the text of a dump. -/
inductive DumpFault where
  | unsupportedHeader (found expected : List Char)
  | badDimension (axis : Axis)
  | unsupportedResolution (found : List Char)
  /-- The text ends before the values of this pixel do. -/
  | truncated (x y : Nat)
  | badCode (word : List Char)
  | badHexFloat (word : List Char)
deriving DecidableEq

/-- Why a dump could not be read. -/
inductive DumpError where
  | malformed (fault : DumpFault)
  | notUtf8
  | missingFile
deriving DecidableEq

/-- The sentence for a fault. -/
def DumpFault.message : DumpFault → String
  | .unsupportedHeader found expected =>
    "unsupported header '" ++ String.ofList found ++ "', expected '" ++ String.ofList expected ++ "'"
  | .badDimension .width => "missing or invalid width"
  | .badDimension .height => "missing or invalid height"
  | .unsupportedResolution found => "unsupported color resolution '" ++ String.ofList found ++ "'"
  | .truncated x y => s!"truncated pixel data at ({x}, {y})"
  | .badCode word => "invalid 8-bit value '" ++ String.ofList word ++ "'"
  | .badHexFloat word => "invalid hex float '" ++ String.ofList word ++ "'"

/-- The sentence for an error. -/
def DumpError.message : DumpError → String
  | .malformed fault => "malformed dump: " ++ fault.message
  | .notUtf8 => "stream did not contain valid UTF-8"
  | .missingFile => "No such file or directory (os error 2)"

namespace Binary32

/-- The eight hexadecimal digits of the bytes of a number. -/
def hexWord (x : Binary32) : List Char := x.toBytes.flatMap Text.hexByte

/-- The number whose bytes a word of eight characters writes, two for each byte. -/
def ofHexWord? : List Char → Option Binary32
  | [c0, c1, c2, c3, c4, c5, c6, c7] => do
    let byte (cs : List Char) := (Text.readNatural? 16 256 cs).map UInt8.ofNat
    return ofBytes (← byte [c0, c1]) (← byte [c2, c3]) (← byte [c4, c5]) (← byte [c6, c7])
  | _ => none

end Binary32

namespace RgbImage

/-! ## Writing -/

/-- The whole ray count of a pixel, zero where it is negative or not a number. -/
def wholeCount (c : Rgb Binary32) : Binary32 := (Scalar.max c.r .zero).trunc

/-- The quotient `num / greatest`, zero when the greatest count is not positive. -/
def shareOf (num greatest : Binary32) : Binary32 :=
  if Scalar.lt .zero greatest then num / greatest else .zero

/-- The words of a pixel, where `greatest` is the greatest whole ray count of the image. -/
def pixelWords [Powers] (kind : ImageKind) (format : DumpFormat) (greatest : Binary32) (c : Rgb Binary32) :
    List (List Char) :=
  let code (b : UInt8) := Text.decimal b.toNat
  let n := wholeCount c
  match format, kind with
  | .ppm, .beauty => c.toList.map fun v => code (gammaEncode v)
  | .ppm, .numSample =>
    let scaled := shareOf (n * Scalar.ofNat 255) greatest
    [code (Scalar.min n (Scalar.ofNat 255)).toUInt8, code scaled.toUInt8, ['0']]
  | .fbd, .beauty => c.toList.map Binary32.hexWord
  | .fbd, .numSample => [n.hexWord, (shareOf n greatest).hexWord, Binary32.zero.hexWord]

/-- The colours in the order of a dump, the top row first. -/
def scan (i : RgbImage) : List (Rgb Binary32) :=
  (List.range (i.width * i.height)).filterMap fun k => i.pixel? (k % i.width) (i.height - 1 - k / i.width)

/-- The lines before the pixels. -/
def dumpHeader (i : RgbImage) (format : DumpFormat) : List Char :=
  format.magic ++ ['\n'] ++ Text.decimal i.width ++ [' '] ++ Text.decimal i.height ++ ['\n'] ++
    match format with
    | .ppm => ['2', '5', '5', '\n']
    | .fbd => []

/-- The text of an image, where each word of a pixel is followed by one blank. -/
def dump [Powers] (i : RgbImage) (kind : ImageKind) (format : DumpFormat) : List Char :=
  i.dumpHeader format ++
    i.scan.flatMap fun c => (pixelWords kind format i.maxRed.trunc c).flatMap (· ++ [' '])

/-! ## Reading -/

/-- The value that a word writes. -/
def readValue [Powers] (kind : ImageKind) (format : DumpFormat) (word : List Char) : Except DumpFault Binary32 :=
  match format with
  | .ppm =>
    match Text.readNatural? 10 256 word with
    | none => .error (.badCode word)
    | some code =>
      match kind with
      | .beauty => .ok (gammaDecode (UInt8.ofNat code))
      | .numSample => .ok (Binary32.ofUInt8 (UInt8.ofNat code))
  | .fbd =>
    match Binary32.ofHexWord? word with
    | none => .error (.badHexFloat word)
    | some v => .ok v

/-- Appends the values of `n` words, where the word after `read` belongs to pixel `read.size / 3` of
the scan. -/
def readValues [Powers] (kind : ImageKind) (format : DumpFormat) (width height : Nat) :
    Nat → Array Binary32 → List (List Char) → Except DumpFault (Array Binary32)
  | 0, read, _ => .ok read
  | _ + 1, read, [] =>
    let pixel := read.size / 3
    .error (.truncated (pixel % width) (height - 1 - pixel / width))
  | n + 1, read, word :: words =>
    match readValue kind format word with
    | .error e => .error e
    | .ok v => readValues kind format width height n (read.push v) words

/-- The image whose values in the order of a dump are these. -/
def ofScan (kind : ImageKind) (width height : Nat) (values : Array Binary32) : RgbImage :=
  ofFn width height fun x y =>
    let start := 3 * ((height - 1 - y) * width + x)
    let value (k : Nat) := values.getD (start + k) .zero
    match kind with
    | .beauty => ⟨value 0, value 1, value 2⟩
    | .numSample => .uniform (value 0)

/-- The size that the next word writes. -/
def readDimension (axis : Axis) : List (List Char) → Except DumpFault (Nat × List (List Char))
  | [] => .error (.badDimension axis)
  | word :: words =>
    match Text.readNatural? 10 0x100000000 word with
    | none => .error (.badDimension axis)
    | some n => .ok (n, words)

/-- The words after the resolution of the colours, which a pixel map gives as 255. -/
def readResolution (format : DumpFormat) (words : List (List Char)) : Except DumpFault (List (List Char)) :=
  match format with
  | .fbd => .ok words
  | .ppm =>
    let found := words.headD []
    if found = ['2', '5', '5'] then .ok words.tail else .error (.unsupportedResolution found)

/-- The image that a list of words describes. -/
def ofWords [Powers] (kind : ImageKind) (format : DumpFormat) (words : List (List Char)) :
    Except DumpFault RgbImage := do
  let found := words.headD []
  if found ≠ format.magic then throw (.unsupportedHeader found format.magic)
  let (width, words) ← readDimension .width words.tail
  let (height, words) ← readDimension .height words
  let words ← readResolution format words
  let values ← readValues kind format width height (3 * (width * height)) #[] words
  return ofScan kind width height values

/-- The image that a file describes. -/
def ofDump [Powers] (kind : ImageKind) (format : DumpFormat) (bytes : ByteArray) : Except DumpError RgbImage :=
  match String.fromUTF8? bytes with
  | none => .error .notUtf8
  | some text =>
    match ofWords kind format (Text.words text.toList) with
    | .error fault => .error (.malformed fault)
    | .ok i => .ok i

/-- The bytes of the dump of an image. -/
def dumpBytes [Powers] (i : RgbImage) (kind : ImageKind) (format : DumpFormat) : ByteArray :=
  (String.ofList (i.dump kind format)).toUTF8

end RgbImage

end ProgressiveFrame
