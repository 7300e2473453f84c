import ProgressiveFrame.Binary32
import ProgressiveFrame.Blend
import ProgressiveFrame.Tile.Mask

/-!
# Channels

A channel holds `numChan` values for each slot of a tiled image, which slots have received data
(its coverage), and, once an update brought them, the number of rays for each slot.

* `Channel.mergeUpdate`: a decoded update overwrites the slots it covers and no other.
* `Channel.mergeWeighted`: another channel is blended in by ray counts.
* `Channel.reset`, `Channel.resetCoverage`: the two ways to begin a new frame.
-/

namespace ProgressiveFrame

/-- The encoding that a pass was sent in. -/
inductive Precision where
  | f32
  | h16
  | uc8
  | runtime
deriving DecidableEq, Inhabited

/-- The names of the encodings. -/
def Precision.names : List (String × Precision) :=
  [("f32", .f32), ("h16", .h16), ("uc8", .uc8), ("runtime", .runtime)]

/-- The encodings of the coarse and of the fine pass. -/
structure PassPrecision where
  coarse : Precision := .f32
  fine : Precision := .f32
deriving DecidableEq, Inhabited

/-- The decoded content of one buffer. -/
structure TileUpdate where
  /-- The pixels that the update covers. -/
  mask : PixelMask
  numChan : Nat
  /-- The values of each covered slot, in ascending order of slots. -/
  values : Array Binary32
  /-- The ray count of each covered slot. -/
  sampleCounts : Option (Array Binary32)
  precision : PassPrecision

/-- One tiled channel. -/
structure Channel where
  layout : TileLayout
  numChan : Nat
  /-- The values of slot `i` stand from `i * numChan` on. -/
  data : Array Binary32
  /-- The ray count of each slot. -/
  sampleCounts : Option (Array Binary32)
  /-- The pixels that have received data since the last reset. -/
  mask : PixelMask
  precision : PassPrecision
deriving DecidableEq

namespace TileUpdate

/-- Why the update cannot be merged into a channel of this shape, if it cannot. -/
def mismatch? (u : TileUpdate) (layout : TileLayout) (numChan : Nat) : Option FrameError :=
  let active := u.mask.activeCount
  if u.mask.layout ≠ layout then some (.layoutMismatch layout.size u.mask.layout.size)
  else if u.numChan ≠ numChan then some (.dimensionMismatch .channelCount numChan u.numChan)
  else if u.values.size ≠ active * numChan then
    some (.dimensionMismatch .decodedValueCount (active * numChan) u.values.size)
  else match u.sampleCounts with
    | some counts =>
      if counts.size ≠ active then some (.dimensionMismatch .sampleCountLength active counts.size) else none
    | none => none

end TileUpdate

/-- Writes packed values over the active slots of a buffer with `width` values for each slot. -/
def overlay (mask : PixelMask) (width : Nat) (stored packed : Array Binary32) : Array Binary32 :=
  let ranks := mask.ranks
  stored.mapIdx fun k value =>
    let slot := k / width
    if mask.isSlotSet slot then packed.getD (ranks.getD slot 0 * width + k % width) value else value

@[simp] theorem size_overlay (mask : PixelMask) (width : Nat) (stored packed : Array Binary32) :
    (overlay mask width stored packed).size = stored.size := by simp [overlay]

namespace Channel

/-- The channel without data. -/
def empty (layout : TileLayout) (numChan : Nat) : Channel where
  layout := layout
  numChan := numChan
  data := Array.replicate (layout.capacity * numChan) .zero
  sampleCounts := none
  mask := .empty layout
  precision := {}

/-- The values of a slot. -/
def slotValues (c : Channel) (slot : Nat) : Array Binary32 :=
  c.data.extract (slot * c.numChan) ((slot + 1) * c.numChan)

/-- The values of a pixel of the image. -/
def pixel? (c : Channel) (x y : Nat) : Option (Array Binary32) :=
  if c.layout.inImage x y then some (c.slotValues (c.layout.slot x y)) else none

/-- The ray count of a pixel of the image, where the channel has ray counts. -/
def sampleCount? (c : Channel) (x y : Nat) : Option Binary32 :=
  if c.layout.inImage x y then c.sampleCounts.map fun counts => counts.getD (c.layout.slot x y) .zero
  else none

/-- The stored ray counts, all zero before the first update that brings some. -/
def countsOrZero (c : Channel) : Array Binary32 :=
  c.sampleCounts.getD (Array.replicate c.layout.capacity .zero)

/-- Writes the values of an update over the slots it covers. An update that does not fit is refused
before anything is written. -/
def mergeUpdate (c : Channel) (u : TileUpdate) : Except FrameError Channel :=
  match u.mismatch? c.layout c.numChan with
  | some e => .error e
  | none => do
    let mask ← c.mask.merge u.mask
    return { c with
      data := overlay u.mask c.numChan c.data u.values
      sampleCounts := match u.sampleCounts with
        | some counts => some (overlay u.mask 1 c.countsOrZero counts)
        | none => c.sampleCounts
      mask
      precision := u.precision }

/-- The ray count of each slot for a blend: what is stored, else one ray for each covered slot. -/
def effectiveCounts (c : Channel) : Array Binary32 :=
  c.sampleCounts.getD <|
    (Array.range c.layout.capacity).map fun slot => if c.mask.isSlotSet slot then .one else .zero

/-- The values with the ray count of each slot. -/
def weighted (c : Channel) : Weighted Binary32 := ⟨c.data, c.effectiveCounts⟩

/-- Blends another channel of the same shape in, slot by slot. -/
def mergeWeighted (c other : Channel) : Except FrameError Channel :=
  if other.layout ≠ c.layout then .error (.layoutMismatch c.layout.size other.layout.size)
  else if other.numChan ≠ c.numChan then .error (.dimensionMismatch .channelCount c.numChan other.numChan)
  else do
    let blended ← c.weighted.blend other.weighted c.numChan
    let mask ← c.mask.merge other.mask
    return { c with data := blended.values, sampleCounts := some blended.counts, mask }

/-- Forgets values, ray counts and coverage. -/
def reset (c : Channel) : Channel :=
  { c with data := c.data.map fun _ => .zero, sampleCounts := none, mask := c.mask.clear }

/-- Forgets ray counts and coverage and keeps the values. -/
def resetCoverage (c : Channel) : Channel := { c with sampleCounts := none, mask := c.mask.clear }

@[simp] theorem size_data_empty (l : TileLayout) (n : Nat) : (empty l n).data.size = l.capacity * n := by simp [empty]

@[simp] theorem size_data_reset (c : Channel) : c.reset.data.size = c.data.size := by simp [reset]

end Channel

end ProgressiveFrame
