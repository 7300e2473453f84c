import ProgressiveFrame.Session.State
import ProgressiveFrame.Store.Readout

/-!
# Receiving a frame

A controller takes messages in the order of their arrival and assembles the frame they describe.

* Each image message names a frame. One that starts a frame not seen in the message before resets
  the store, before any of its buffers is looked at (`Controller.ingest`).
* A buffer that is empty or metadata changes no pixel; one that cannot be decoded is skipped; one
  that does not fit the store ends the message, and what was merged before it stays
  (`Delivery.dispatch`, `Delivery.run`).
* A message without an image goes to the metadata decoder and can only pull the progress back to
  zero (`Controller.ingestMetadata`).

The decoders of payloads are given from outside.
-/

namespace ProgressiveFrame

/-- The decoder of image payloads, a pure function of its input. -/
structure Codec where
  decode : DataType → ByteArray → TileLayout → Option TileUpdate
  decodeReference : ByteArray → Option ReferenceKind

/-- The decoders of payloads; `μ` is what the decoder of metadata remembers. -/
structure Decoders (μ : Type) where
  codec : Codec
  decodeMetadata : μ → String → ByteArray → μ
  /-- The latest frame that metadata has told of, 0 when it has told of none. -/
  newestSyncId : μ → Nat

/-- Why a message was not taken in to its end: a buffer did not fit the store. -/
structure IngestError where
  buffer : String
  cause : FrameError
deriving DecidableEq

/-- The sentence for an error. -/
def IngestError.message (e : IngestError) : String :=
  "buffer '" ++ e.buffer ++ "' does not fit the frame store: " ++ e.cause.message

/-- What the buffers of one message act on. -/
structure Delivery (μ : Type) where
  store : FrameStore
  metadata : μ
  /-- The names of the buffers that could not be decoded, in order. -/
  skipped : List String

namespace Delivery

variable {μ : Type}

/-- The delivery with one skipped buffer more. -/
def skip (d : Delivery μ) (b : NamedBuffer) : Delivery μ := { d with skipped := d.skipped ++ [b.name] }

/-- Merges a decoded buffer where it belongs. -/
def merge (d : Delivery μ) (b : NamedBuffer) (u : TileUpdate) : Delivery μ × Except IngestError Unit :=
  let (store, result) := match b.dataType.target with
    | .channel kind => d.store.mergeUpdate kind u
    | _ => d.store.mergeAov b.name u
  ({ d with store }, result.mapError fun cause => ⟨b.name, cause⟩)

/-- Takes one buffer in. -/
def dispatch (decoders : Decoders μ) (d : Delivery μ) (b : NamedBuffer) : Delivery μ × Except IngestError Unit :=
  if b.isEmpty then (d, .ok ())
  else if b.isMetadata then ({ d with metadata := decoders.decodeMetadata d.metadata b.name b.bytes }, .ok ())
  else match b.dataType.target with
    | .nowhere => (d.skip b, .ok ())
    | .reference =>
      match decoders.codec.decodeReference b.bytes with
      | some kind => ({ d with store := d.store.registerReference b.name kind }, .ok ())
      | none => (d.skip b, .ok ())
    | .channel _ | .aov =>
      match decoders.codec.decode b.dataType b.bytes d.store.layout with
      | some u => d.merge b u
      | none => (d.skip b, .ok ())

/-- Takes buffers in, one after another, up to the first that does not fit. -/
def run (decoders : Decoders μ) (d : Delivery μ) : List NamedBuffer → Delivery μ × Except IngestError Unit
  | [] => (d, .ok ())
  | b :: bs =>
    match d.dispatch decoders b with
    | (d, .ok ()) => run decoders d bs
    | (d, .error e) => (d, .error e)

theorem run_append (decoders : Decoders μ) (d : Delivery μ) (bs cs : List NamedBuffer) :
    run decoders d (bs ++ cs) =
      match run decoders d bs with
      | (d, .ok ()) => run decoders d cs
      | (d, .error e) => (d, .error e) := by
  induction bs generalizing d with
  | nil => rfl
  | cons b bs ih =>
    simp only [List.cons_append, run]
    rcases d.dispatch decoders b with ⟨d', _ | _⟩
    · rfl
    · exact ih d'

end Delivery

/-- A receiver of messages. -/
structure Controller (μ : Type) where
  resetMode : ResetMode
  /-- Whether the session prefers to decode buffers side by side. -/
  parallelDecode : Bool
  store : FrameStore
  session : SessionState
  metadata : μ
  /-- The number of image messages that have been taken in. -/
  activity : Nat

/-- What became of a message. -/
structure IngestStep (μ : Type) where
  next : Controller μ
  /-- The controller at the moment when the start of a frame is reported, if it is. -/
  started : Option (Controller μ)
  result : Except IngestError Unit

namespace Controller

variable {μ : Type}

/-- A receiver that has seen no message. -/
def new (resetMode : ResetMode) (parallelDecode : Bool) (window : Duration) (metadata : μ) : Controller μ where
  resetMode := resetMode
  parallelDecode := parallelDecode
  store := .empty .origin
  session := .new window
  metadata := metadata
  activity := 0

/-- Begins an empty store when the viewport changes. -/
def ensureViewport (c : Controller μ) (v : Viewport) : Controller μ :=
  if c.store.viewport = v then c else { c with store := .empty v }

/-- Whether an image message begins a frame that the message before it did not belong to. -/
def startsFrame (c : Controller μ) (h : FrameHeader) : Bool :=
  h.status == .started && c.session.changesFrame h

/-- The controller before the buffers of an image message are looked at. -/
def beginMessage (c : Controller μ) (h : FrameHeader) (a : Arrival) : Controller μ :=
  let starts := c.startsFrame h
  let c := c.ensureViewport h.viewport
  let c := { c with session := c.session.noteFrame h a }
  if starts then { c with store := c.store.reset c.resetMode } else c

/-- The controller with what the buffers of a message have acted on. -/
def withDelivery (c : Controller μ) (d : Delivery μ) : Controller μ :=
  { c with store := d.store, metadata := d.metadata }

/-- Takes an image message in. -/
def ingestImage (decoders : Decoders μ) (c : Controller μ) (h : FrameHeader) (buffers : List NamedBuffer)
    (a : Arrival) : IngestStep μ :=
  let begun := c.beginMessage h a
  let started := if c.startsFrame h then some begun else none
  let (d, result) := Delivery.run decoders ⟨begun.store, begun.metadata, []⟩ buffers
  let delivered := begun.withDelivery d
  match result with
  | .error e => ⟨delivered, started, .error e⟩
  | .ok () =>
    let size := NamedBuffer.payloadSize buffers
    ⟨{ delivered with
        session := delivered.session.noteDelivery h a size d.skipped
        activity := delivered.activity + 1 }, started, .ok ()⟩

/-- Takes a message without an image in. -/
def ingestMetadata (decoders : Decoders μ) (c : Controller μ) (buffers : List NamedBuffer) : Controller μ :=
  let metadata := (buffers.filter (!·.isEmpty)).foldl (fun m b => decoders.decodeMetadata m b.name b.bytes) c.metadata
  { c with metadata, session := c.session.noteNewest (decoders.newestSyncId metadata) }

/-- Takes a message in. -/
def ingest (decoders : Decoders μ) (c : Controller μ) (h : FrameHeader) (buffers : List NamedBuffer)
    (a : Arrival) : IngestStep μ :=
  if h.isMetadataOnly then ⟨c.ingestMetadata decoders buffers, none, .ok ()⟩
  else c.ingestImage decoders h buffers a

/-- Reads a source out. Without a region of interest that of the latest message is taken, and a pass
that may be sparse is filled first. -/
def readout (c : Controller μ) (source : ReadoutSource) (o : Orientation) (roi : Option Viewport) :
    Controller μ × Except FrameError Readout :=
  let (store, r) := c.store.readout source o (roi <|> c.session.roi) c.session.coarsePass.needsExtrapolation
  ({ c with store }, r)

theorem startsFrame_iff {c : Controller μ} {h : FrameHeader} :
    c.startsFrame h = true ↔ h.status = .started ∧ c.session.syncId ≠ some h.syncId := by
  simp [startsFrame, SessionState.changesFrame]

@[simp] theorem viewport_ensureViewport (c : Controller μ) (v : Viewport) :
    (c.ensureViewport v).store.viewport = v := by
  unfold ensureViewport
  split
  · assumption
  · rfl

end Controller

end ProgressiveFrame
