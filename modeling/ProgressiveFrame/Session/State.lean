import ProgressiveFrame.Schedule.Rate
import ProgressiveFrame.Session.Message

/-!
# Session state

What a receiver remembers of the messages it has seen, beside the pixels.
-/

namespace ProgressiveFrame

/-- The memory of a receiver. -/
structure SessionState where
  /-- The frame of the latest image message. -/
  syncId : Option Nat := none
  viewId : Nat := 0
  status : Option FrameStatus := none
  progress : Binary32 := .zero
  coarsePass : CoarsePass := .unknown
  roi : Option Viewport := none
  machineId : Int := -1
  /-- The number of payload bytes of the latest image message that was taken in. -/
  messageSize : Nat := 0
  snapshotMicros : Nat := 0
  /-- The time in seconds from the sender's snapshot to the arrival of the message. -/
  latency : Binary32 := .zero
  frameStartedAt : Option Instant := none
  albedoInput : String := ""
  normalInput : String := ""
  /-- The buffers of the latest image message that could not be decoded. -/
  skipped : List String := []
  rate : MessageRate

/-- When a message arrived, on the two clocks of the receiver. -/
structure Arrival where
  received : Instant
  /-- Microseconds since the epoch that senders count from. -/
  wallMicros : Nat

/-- The seconds since a snapshot, zero when its time is unknown or lies ahead. -/
def Arrival.latencySince (a : Arrival) (snapshotMicros : Nat) : Binary32 :=
  if snapshotMicros = 0 then .zero
  else Scalar.ofNat (a.wallMicros - snapshotMicros) / Scalar.ofNat 1000000

namespace SessionState

/-- The memory before the first message. -/
def new (window : Duration) : SessionState := { rate := .new window }

/-- Whether a message belongs to another frame than the image message before it. -/
def changesFrame (s : SessionState) (h : FrameHeader) : Bool := s.syncId != some h.syncId

/-- What is noted of an image message before its buffers are looked at. -/
def noteFrame (s : SessionState) (h : FrameHeader) (a : Arrival) : SessionState :=
  { s with
    syncId := some h.syncId
    frameStartedAt := if s.changesFrame h then some a.received else s.frameStartedAt
    albedoInput := if h.status = .started then h.albedoInput else s.albedoInput
    normalInput := if h.status = .started then h.normalInput else s.normalInput }

/-- What is noted of an image message once all its buffers have been taken in. -/
def noteDelivery (s : SessionState) (h : FrameHeader) (a : Arrival) (size : Nat) (skipped : List String) :
    SessionState :=
  { s with
    viewId := h.viewId
    status := some h.status
    progress := h.progress
    coarsePass := h.coarsePass
    roi := h.roi
    machineId := h.machineId
    messageSize := size
    snapshotMicros := h.snapshotMicros
    latency := a.latencySince h.snapshotMicros
    skipped := skipped
    rate := s.rate.record a.received }

/-- The progress falls back to zero when the sender is known to be at a later frame. -/
def noteNewest (s : SessionState) (newest : Nat) : SessionState :=
  let current := s.syncId.getD 0
  if 0 < current ∧ current < newest then { s with progress := .zero } else s

end SessionState

end ProgressiveFrame
