import ProgressiveFrame.Binary32
import ProgressiveFrame.Viewport
import ProgressiveFrame.Store.Basic

/-!
# Messages

A message has a header and any number of named buffers. A header with a negative progress announces
metadata only. In an image message each buffer declares what it holds (`DataType`); a few names are
reserved for metadata whatever is declared for them.
-/

namespace ProgressiveFrame

/-- How far the sender is with a frame. -/
inductive FrameStatus where
  | started
  | rendering
  | finished
  | cancelled
  | error
deriving DecidableEq, Inhabited

/-- Whether a message belongs to the sparse pass or to the full one. -/
inductive CoarsePass where
  | coarse
  | fine
  | unknown
deriving DecidableEq

instance : Inhabited CoarsePass := ⟨.unknown⟩

namespace CoarsePass

/-- The pass that a code on the wire means. -/
def ofWire : UInt8 → CoarsePass
  | 0 => .coarse
  | 1 => .fine
  | _ => .unknown

/-- Whether tiles may be covered in part. Only a pass that is known to be full rules it out. -/
def needsExtrapolation : CoarsePass → Bool
  | .fine => false
  | .coarse | .unknown => true

end CoarsePass

/-- What a message says about itself. -/
structure FrameHeader where
  syncId : Nat
  viewId : Nat := 0
  status : FrameStatus
  progress : Binary32
  coarsePass : CoarsePass := .unknown
  viewport : Viewport
  roi : Option Viewport := none
  /-- When the sender took the picture, in microseconds; 0 when it does not say. -/
  snapshotMicros : Nat := 0
  machineId : Int := -1
  /-- The AOVs that guide the denoiser, read when a frame starts. -/
  albedoInput : String := ""
  normalInput : String := ""
deriving DecidableEq

namespace FrameHeader

/-- The progress of a message without an image. -/
def metadataOnlyProgress : Binary32 := Scalar.zero - Scalar.ofNat 1

/-- The header of a message without an image. -/
def metadataOnly (syncId : Nat) : FrameHeader where
  syncId := syncId
  status := .rendering
  progress := metadataOnlyProgress
  viewport := .origin

/-- Whether the message is without an image. -/
def isMetadataOnly (h : FrameHeader) : Bool := Scalar.lt h.progress Scalar.zero

end FrameHeader

/-- What a buffer is declared to hold. -/
inductive DataType where
  | beauty
  | beautyWithSamples
  | pixelInfo
  | heatMap
  | heatMapWithSamples
  | weight
  | beautyOdd
  | beautyOddWithSamples
  | aovReference
  | aovGeneric
  | unrecognized
deriving DecidableEq, Inhabited

/-- Where the content of a buffer goes. -/
inductive BufferTarget where
  | channel (kind : WellKnown)
  /-- The AOV of the buffer's name. -/
  | aov
  /-- An alias under the buffer's name. -/
  | reference
  | nowhere
deriving DecidableEq

namespace DataType

/-- The names of the types. -/
def names : List (String × DataType) :=
  [("beauty", .beauty), ("beauty-with-samples", .beautyWithSamples), ("pixel-info", .pixelInfo),
    ("heat-map", .heatMap), ("heat-map-with-samples", .heatMapWithSamples), ("weight", .weight),
    ("beauty-odd", .beautyOdd), ("beauty-odd-with-samples", .beautyOddWithSamples),
    ("aov-reference", .aovReference), ("aov-generic", .aovGeneric), ("unrecognized", .unrecognized)]

/-- Whether ray counts come with the values. -/
def carriesSamples : DataType → Bool
  | .beautyWithSamples | .heatMapWithSamples | .beautyOddWithSamples => true
  | _ => false

/-- Where a buffer of this type goes. -/
def target : DataType → BufferTarget
  | .beauty | .beautyWithSamples => .channel .beauty
  | .pixelInfo => .channel .pixelInfo
  | .heatMap | .heatMapWithSamples => .channel .heatMap
  | .weight => .channel .weight
  | .beautyOdd | .beautyOddWithSamples => .channel .beautyOdd
  | .aovGeneric => .aov
  | .aovReference => .reference
  | .unrecognized => .nowhere

end DataType

/-- One named payload of a message. -/
structure NamedBuffer where
  name : String
  dataType : DataType
  bytes : ByteArray

/-- The names that always hold metadata. -/
def metadataNames : List String := ["latencyLog", "latencyLogUpstream", "auxInfo"]

namespace NamedBuffer

/-- Whether the buffer holds metadata by its name. -/
def isMetadata (b : NamedBuffer) : Bool := metadataNames.contains b.name

/-- The number of payload bytes of buffers. -/
def payloadSize (buffers : List NamedBuffer) : Nat := buffers.foldr (fun b size => b.bytes.size + size) 0

/-- Whether the buffer has no payload. -/
def isEmpty (b : NamedBuffer) : Bool := b.bytes.size == 0

end NamedBuffer

end ProgressiveFrame
