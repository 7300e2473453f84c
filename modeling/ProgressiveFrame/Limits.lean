import ProgressiveFrame.Denoise.Pipeline
import ProgressiveFrame.Image.Dump

/-!
# Limits of words and arrays

The operations of this library count without limits. A receiver that counts in machine words and keeps
its values in arrays gives up where a number leaves its word or an array cannot be had. The predicates
here hold for the arguments with which it goes on, and does what the operations say.

* `Viewport.isMeasurable`, `Viewport.canIntersect`, `Viewport.canShift`: coordinates and their
  differences are signed words of 32 bits.
* `TileLayout.canHold`, `RgbImage.canHold`, `RollingWindow.canHold`: an array has fewer than
  `arrayLimit` bytes.
* `Channel.canUntile`: the values that are asked for end behind their start.
* `Controller.canIngest`, `Controller.canRead`: what these ask of the requests of a session.
-/

namespace ProgressiveFrame

/-- Whether a number is a signed word of 32 bits. -/
def isSignedWord (n : Int) : Bool := -0x80000000 ≤ n && n < 0x80000000

/-- Whether a number is a word of 64 bits. -/
def isLongWord (n : Nat) : Bool := n < 0x10000000000000000

/-- The number of bytes that no array reaches. -/
def arrayLimit : Nat := 0x8000000000000000

/-- Whether so many elements of so many bytes make an array. -/
def isArray (count bytes : Nat) : Bool := count * bytes < arrayLimit

/-! ## Coordinates -/

/-- Whether the coordinates from `low` to `high` can be counted. -/
def isCountable (low high : Int) : Bool := isSignedWord (high - low) && isSignedWord (high - low + 1)

namespace Viewport

/-- Whether width and height can be found. -/
def isMeasurable (v : Viewport) : Bool := isCountable v.minX v.maxX && isCountable v.minY v.maxY

/-- Whether it can be found that the viewport is empty or is not. Without a width, the height is not
looked at. -/
def canTestEmpty (v : Viewport) : Bool :=
  isCountable v.minX v.maxX && (v.width == 0 || isCountable v.minY v.maxY)

/-- Whether two viewports can be intersected. -/
def canIntersect (v w : Viewport) : Bool := (v.common w).canTestEmpty

/-- Whether the viewport has coordinates that start at the lower left corner of `base`. -/
def canShift (v base : Viewport) : Bool :=
  let r := v.relativeTo base
  isSignedWord r.minX && isSignedWord r.minY && isSignedWord r.maxX && isSignedWord r.maxY

/-- Whether a number is the width or the height of a viewport at the origin. -/
def isExtent (n : Nat) : Bool := isSignedWord (signedWord n - 1)

end Viewport

namespace TileLayout

/-- Whether the bounds of the image are a viewport. -/
def canBound (l : TileLayout) : Bool := Viewport.isExtent l.width && Viewport.isExtent l.height

/-- Whether a channel with so many values for each pixel, and the mask beside it, can be held. -/
def canHold (l : TileLayout) (numChan : Nat) : Bool := isArray (l.capacity * numChan) 4 && isArray l.capacity 4

end TileLayout

/-! ## Channels and stores -/

namespace Channel

/-- Whether the area of a region of interest can be found. -/
def canSelect (c : Channel) (roi : Option Viewport) : Bool :=
  c.layout.canBound && roi.all (·.canIntersect c.layout.bounds)

/-- Whether the values `first` to `last - 1` of each pixel of an area can be taken. -/
def canSlice (c : Channel) (roi : Option Viewport) (first last : Nat) : Bool :=
  min first c.numChan ≤ min last c.numChan || (c.layout.area? roi).all (·.isEmpty)

/-- Whether a region of interest can be read out. -/
def canUntile (c : Channel) (roi : Option Viewport) (first last : Nat) : Bool :=
  c.canSelect roi && c.canSlice roi first last

end Channel

namespace FrameStore

/-- Whether a viewport has a store. -/
def canHold (v : Viewport) : Bool := v.isMeasurable && TileLayout.canHold ⟨v.width, v.height⟩ 4

/-- Whether an update of an AOV with so many values for each pixel finds a channel or can be given one. -/
def canMergeAov (s : FrameStore) (name : String) (numChan : Nat) : Bool :=
  (s.aovIndex? name).isSome || s.layout.canHold numChan

/-- Whether a source can be read out, or is found not to be there. -/
def canRead (s : FrameStore) (source : ReadoutSource) (roi : Option Viewport) : Bool :=
  roi.all (·.canShift s.viewport) &&
    match s.holder source with
    | .error _ => true
    | .ok (.wellKnown kind _ _) => (s.channel kind).canSelect (roi.map (·.relativeTo s.viewport))
    | .ok (.owned _ c) => c.canSelect (roi.map (·.relativeTo s.viewport))

end FrameStore

/-! ## Blends, images, windows -/

/-- Whether the values that belong to the ray counts of a buffer can be counted, where the lengths of
two buffers are equal and their number matters. -/
def Weighted.canBlend {α : Type} (acc src : Weighted α) (numChan : Nat) : Bool :=
  src.values.size != acc.values.size || acc.counts.size != src.counts.size || isLongWord (acc.counts.size * numChan)

namespace RgbImage

/-- Whether an image of a size can be held. -/
def canHold (width height : Nat) : Bool := isArray (width * height) 12

/-- Whether the values of a readout can be counted, where their number matters. -/
def canTake (r : Readout) : Bool := r.numChan < 3 || isLongWord (r.width * r.height * r.numChan)

/-- The size that the words of a dump begin with, where they begin with the lines before the pixels. -/
def wordsSize? (format : DumpFormat) (words : List (List Char)) : Option (Nat × Nat) := do
  if words.headD [] ≠ format.magic then none
  else
    let (width, words) ← (readDimension .width words.tail).toOption
    let (height, words) ← (readDimension .height words).toOption
    let _ ← (readResolution format words).toOption
    return (width, height)

/-- Whether the image that a file describes can be held. -/
def canRead (format : DumpFormat) (bytes : ByteArray) : Bool :=
  match String.fromUTF8? bytes with
  | none => true
  | some text => (wordsSize? format (Text.words text.toList)).all fun size => canHold size.1 size.2

end RgbImage

/-- Whether a window can have room for so many values. -/
def RollingWindow.canHold (capacity : Nat) : Bool := isArray (max capacity 1) 4

/-! ## Sessions -/

namespace Delivery

variable {μ : Type}

/-- Whether one buffer can be taken in. -/
def canDispatch (decoders : Decoders μ) (d : Delivery μ) (b : NamedBuffer) : Bool :=
  b.isEmpty || b.isMetadata ||
    match b.dataType.target, decoders.codec.decode b.dataType b.bytes d.store.layout with
    | .aov, some u => d.store.canMergeAov b.name u.numChan
    | _, _ => true

/-- Whether buffers can be taken in, up to the first that does not fit. -/
def canRun (decoders : Decoders μ) (d : Delivery μ) : List NamedBuffer → Bool
  | [] => true
  | b :: bs =>
    d.canDispatch decoders b &&
      match d.dispatch decoders b with
      | (d, .ok ()) => canRun decoders d bs
      | (_, .error _) => true

end Delivery

namespace Controller

variable {μ : Type}

/-- Whether a message can be taken in. -/
def canIngest (decoders : Decoders μ) (c : Controller μ) (h : FrameHeader) (buffers : List NamedBuffer)
    (a : Arrival) : Bool :=
  h.isMetadataOnly ||
    ((decide (c.store.viewport = h.viewport) || FrameStore.canHold h.viewport) &&
      let begun := c.beginMessage h a
      Delivery.canRun decoders ⟨begun.store, begun.metadata, []⟩ buffers)

/-- Whether a source can be read out, or is found not to be there. All channels of a store have one
size, so this does not depend on which of them is read. -/
def canRead (c : Controller μ) (source : ReadoutSource) (roi : Option Viewport) : Bool :=
  c.store.canRead source (roi <|> c.session.roi)

end Controller

end ProgressiveFrame
