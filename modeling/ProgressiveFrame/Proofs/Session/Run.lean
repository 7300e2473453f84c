import ProgressiveFrame.Proofs.Session.Buffers

/-!
# Runs of messages

A controller takes messages one after another. What it does with one of them is one of three things
(`Controller.Took`): a message without an image is taken aside; an image message is delivered when all
its writes succeed, and refused otherwise.

* `Controller.took`: everything that a message can do to a controller is one of the three.
* `SessionRun`: a controller with a record of each message that it has taken. A record says what came in,
  how it was answered and which of its buffers were taken, and nothing else of the controller.
* `SessionRun.induct`: what holds at the start and is kept by each message holds after every run.
-/

namespace ProgressiveFrame

/-- The tile layout that the buffers of an image message have. -/
def FrameHeader.layout (h : FrameHeader) : TileLayout := ⟨h.viewport.width, h.viewport.height⟩

/-- A message as it arrives. -/
structure Message where
  header : FrameHeader
  buffers : List NamedBuffer
  arrival : Arrival

namespace Message

/-- Whether the message carries an image. -/
def isImage (m : Message) : Bool := !m.header.isMetadataOnly

/-- The writes that the message asks for. -/
def writes (codec : Codec) (m : Message) : List Write := NamedBuffer.writes codec m.header.layout m.buffers

/-- The names of the buffers that are left out. -/
def skippedNames (codec : Codec) (m : Message) : List String :=
  NamedBuffer.skippedNames codec m.header.layout m.buffers

end Message

namespace Controller

variable {μ : Type} {decoders : Decoders μ} {c : Controller μ}

/-- The store that an image message with this viewport finds, an empty one when the viewport differs. -/
def storeFor (c : Controller μ) (v : Viewport) : FrameStore := if c.store.viewport = v then c.store else .empty v

/-- Takes a message in, as it arrives. -/
def take (decoders : Decoders μ) (c : Controller μ) (m : Message) : IngestStep μ :=
  c.ingest decoders m.header m.buffers m.arrival

/-- The controller when the start of a frame is reported, if it is. -/
def startFor (c : Controller μ) (h : FrameHeader) (a : Arrival) : Option (Controller μ) :=
  if c.startsFrame h then some (c.beginMessage h a) else none

/-- A change of the viewport concerns nothing but the store. -/
theorem ensureViewport_eq (c : Controller μ) (v : Viewport) :
    c.ensureViewport v = { c with store := c.storeFor v } := by
  unfold ensureViewport storeFor
  split <;> rfl

@[simp] theorem viewport_storeFor (c : Controller μ) (v : Viewport) : (c.storeFor v).viewport = v := by
  have hv := viewport_ensureViewport c v
  rwa [ensureViewport_eq] at hv

theorem storeFor_of_eq {v : Viewport} (hv : c.store.viewport = v) : c.storeFor v = c.store := if_pos hv

/-- Before the buffers are looked at, the store is made ready and the frame is noted. -/
theorem beginMessage_eq (c : Controller μ) (h : FrameHeader) (a : Arrival) :
    c.beginMessage h a = { c with
      store := if c.startsFrame h then (c.storeFor h.viewport).reset c.resetMode else c.storeFor h.viewport
      session := c.session.noteFrame h a } := by
  unfold beginMessage
  rw [ensureViewport_eq]
  cases c.startsFrame h <;> rfl

theorem store_beginMessage (c : Controller μ) (h : FrameHeader) (a : Arrival) :
    (c.beginMessage h a).store =
      if c.startsFrame h then (c.storeFor h.viewport).reset c.resetMode else c.storeFor h.viewport := by
  rw [beginMessage_eq]

@[simp] theorem session_beginMessage (c : Controller μ) (h : FrameHeader) (a : Arrival) :
    (c.beginMessage h a).session = c.session.noteFrame h a := by
  rw [beginMessage_eq]

@[simp] theorem activity_beginMessage (c : Controller μ) (h : FrameHeader) (a : Arrival) :
    (c.beginMessage h a).activity = c.activity := by
  rw [beginMessage_eq]

@[simp] theorem viewport_beginMessage (c : Controller μ) (h : FrameHeader) (a : Arrival) :
    (c.beginMessage h a).store.viewport = h.viewport := by
  rw [store_beginMessage]
  split <;> simp

theorem layout_beginMessage (c : Controller μ) (h : FrameHeader) (a : Arrival) :
    (c.beginMessage h a).store.layout = h.layout := by
  rw [FrameStore.layout, viewport_beginMessage]
  rfl

/-- The store that the buffers of an image message find: an empty one when the viewport differs, and one that has
been reset when a frame starts. -/
def storeBefore (c : Controller μ) (h : FrameHeader) : FrameStore :=
  if c.startsFrame h then (c.storeFor h.viewport).reset c.resetMode else c.storeFor h.viewport

theorem layout_storeBefore (c : Controller μ) (h : FrameHeader) : (c.storeBefore h).layout = h.layout := by
  have hlayout := layout_beginMessage c h ⟨⟨0⟩, 0⟩
  rwa [store_beginMessage] at hlayout

/-- The buffers of a message that are taken: all of them without an image, and with one those before the first that
the store refuses. -/
def takenBuffers (codec : Codec) (c : Controller μ) (m : Message) : List NamedBuffer :=
  if m.isImage then NamedBuffer.fitting codec (c.storeBefore m.header) m.buffers else m.buffers

/-- What the buffers of an image message do. -/
def delivery (decoders : Decoders μ) (c : Controller μ) (m : Message) : Delivery μ × Except IngestError Unit :=
  Delivery.run decoders ⟨c.storeBefore m.header, c.metadata, []⟩ m.buffers

/-- An image message is noted before its buffers are looked at, and remembered once they have come to their end. -/
theorem take_of_image {m : Message} (hm : m.isImage = true) : c.take decoders m =
    ⟨{ c with
      store := (c.delivery decoders m).1.store
      metadata := (c.delivery decoders m).1.metadata
      session := match (c.delivery decoders m).2 with
        | .ok () => (c.session.noteFrame m.header m.arrival).noteDelivery m.header m.arrival
          (NamedBuffer.payloadSize m.buffers) (c.delivery decoders m).1.skipped
        | .error _ => c.session.noteFrame m.header m.arrival
      activity := match (c.delivery decoders m).2 with
        | .ok () => c.activity + 1
        | .error _ => c.activity }, c.startFor m.header m.arrival, (c.delivery decoders m).2⟩ := by
  have hbegun : c.beginMessage m.header m.arrival = { c with
      store := c.storeBefore m.header
      session := c.session.noteFrame m.header m.arrival } := beginMessage_eq ..
  have himage : m.header.isMetadataOnly = false := by simpa [Message.isImage] using hm
  rw [take, ingest, himage, ingestImage, startFor, hbegun, delivery]
  rcases Delivery.run decoders ⟨c.storeBefore m.header, c.metadata, []⟩ m.buffers with ⟨d, _ | _⟩
  · rfl
  · rfl

/-- What a message can do to a controller, with the report of a start and the answer. -/
inductive Took (decoders : Decoders μ) (c : Controller μ) (m : Message) : IngestStep μ → Prop where
  /-- There is no image. Metadata can pull the progress back. -/
  | aside {memory : μ} (hm : m.isImage = false) :
      Took decoders c m ⟨{ c with
        metadata := memory
        session := c.session.noteNewest (decoders.newestSyncId memory) }, none, .ok ()⟩
  /-- All writes succeed, and the message is remembered. -/
  | delivered {memory : μ} (hm : m.isImage = true)
      (hw : ((c.beginMessage m.header m.arrival).store.writeAll (m.writes decoders.codec)).2 = .ok ()) :
      Took decoders c m ⟨{ c.beginMessage m.header m.arrival with
        store := ((c.beginMessage m.header m.arrival).store.writeAll (m.writes decoders.codec)).1
        metadata := memory
        session := (c.session.noteFrame m.header m.arrival).noteDelivery m.header m.arrival
          (NamedBuffer.payloadSize m.buffers) (m.skippedNames decoders.codec)
        activity := c.activity + 1 }, c.startFor m.header m.arrival, .ok ()⟩
  /-- A write is refused. Those before it stay, and so does what was noted before them. -/
  | refused {memory : μ} {e : IngestError} (hm : m.isImage = true)
      (hw : ((c.beginMessage m.header m.arrival).store.writeAll (m.writes decoders.codec)).2 ≠ .ok ()) :
      Took decoders c m ⟨{ c.beginMessage m.header m.arrival with
        store := ((c.beginMessage m.header m.arrival).store.writeAll (m.writes decoders.codec)).1
        metadata := memory }, c.startFor m.header m.arrival, .error e⟩

theorem took_ingestImage {m : Message} (hm : m.isImage = true) :
    c.Took decoders m (c.ingestImage decoders m.header m.buffers m.arrival) := by
  have hlayout := layout_beginMessage c m.header m.arrival
  have hrun := Delivery.run_spec decoders
    ⟨(c.beginMessage m.header m.arrival).store, (c.beginMessage m.header m.arrival).metadata, []⟩ m.buffers
  simp only [hlayout] at hrun
  unfold ingestImage withDelivery
  generalize hd : Delivery.run decoders
    ⟨(c.beginMessage m.header m.arrival).store, (c.beginMessage m.header m.arrival).metadata, []⟩ m.buffers = r at hrun
  obtain ⟨⟨store, memory, skipped⟩, result⟩ := r
  obtain ⟨hstore, hok, hskipped⟩ := hrun
  simp only at hstore hok hskipped
  subst hstore
  cases result with
  | ok =>
    have hnames := hskipped rfl
    rw [List.nil_append] at hnames
    subst hnames
    simp only [hd, session_beginMessage, activity_beginMessage]
    exact .delivered hm (hok.mp rfl)
  | error e =>
    simp only [hd]
    exact .refused hm fun hw => nomatch hok.mpr hw

/-- A message does one of three things. -/
theorem took (decoders : Decoders μ) (c : Controller μ) (m : Message) : c.Took decoders m (c.take decoders m) := by
  unfold take ingest
  cases hm : m.header.isMetadataOnly with
  | true => exact .aside (by rw [Message.isImage, hm]; rfl)
  | false => exact took_ingestImage (by rw [Message.isImage, hm]; rfl)

theorem store_take_aside {m : Message} (hm : m.isImage = false) : (c.take decoders m).next.store = c.store := by
  have htook := c.took decoders m
  generalize c.take decoders m = step at htook
  cases htook with
  | aside _ => rfl
  | delivered hi _ => exact absurd (hm.symm.trans hi) nofun
  | refused hi _ => exact absurd (hm.symm.trans hi) nofun

theorem store_take_image {m : Message} (hm : m.isImage = true) : (c.take decoders m).next.store =
    ((c.beginMessage m.header m.arrival).store.writeAll (m.writes decoders.codec)).1 := by
  have htook := c.took decoders m
  generalize c.take decoders m = step at htook
  cases htook with
  | aside hi => exact absurd (hm.symm.trans hi) nofun
  | delivered _ _ => rfl
  | refused _ _ => rfl

/-- What holds of an empty store and is kept by each request is kept by a message. -/
theorem store_take_induct {motive : FrameStore → Prop} (empty : ∀ v, motive (.empty v))
    (serve : ∀ s q, motive s → motive (s.serve q).1) (start : motive c.store) (m : Message) :
    motive (c.take decoders m).next.store := by
  cases hm : m.isImage with
  | false => rwa [store_take_aside hm]
  | true =>
    have hfor : motive (c.storeFor m.header.viewport) := by
      unfold storeFor
      split
      · exact start
      · exact empty m.header.viewport
    rw [store_take_image hm, store_beginMessage]
    refine FrameStore.writeAll_induct (fun s w => serve s (.write w)) ?_ _
    split
    · exact serve _ (.reset c.resetMode) hfor
    · exact hfor

theorem result_take_image {m : Message} (hm : m.isImage = true) : (c.take decoders m).result = .ok () ↔
    ((c.beginMessage m.header m.arrival).store.writeAll (m.writes decoders.codec)).2 = .ok () := by
  have htook := c.took decoders m
  generalize c.take decoders m = step at htook
  cases htook with
  | aside hi => exact absurd (hm.symm.trans hi) nofun
  | delivered _ hw => exact ⟨fun _ => hw, fun _ => rfl⟩
  | refused _ hw => exact ⟨nofun, fun h => absurd h hw⟩

theorem started_take (decoders : Decoders μ) (c : Controller μ) (m : Message) : (c.take decoders m).started =
    if m.isImage then c.startFor m.header m.arrival else none := by
  have htook := c.took decoders m
  generalize c.take decoders m = step at htook
  cases htook with
  | aside hm => simp [hm]
  | delivered hm _ => simp [hm]
  | refused hm _ => simp [hm]

end Controller

/-! ## Records -/

/-- What is recorded of a message that has been taken. -/
structure MessageRecord where
  message : Message
  result : Except IngestError Unit
  /-- The buffers that were taken. -/
  taken : List NamedBuffer

namespace MessageRecord

/-- Whether the message carried an image. -/
def isImage (r : MessageRecord) : Bool := r.message.isImage

/-- Whether the message carried an image of a frame that begins. -/
def isStarted (r : MessageRecord) : Bool := r.isImage && r.message.header.status == .started

/-- Whether the message carried an image and was taken to its end. -/
def isDelivered (r : MessageRecord) : Bool := r.isImage && decide (r.result = .ok ())

/-- The buffers for the metadata decoder: of those that were taken and have a payload, all without an image, and with
one those under the names of metadata. -/
def metadata (r : MessageRecord) : List NamedBuffer :=
  r.taken.filter fun b => b.bytes.size ≠ 0 ∧ (r.isImage = true → b.name ∈ metadataNames)

end MessageRecord

/-- The messages that a controller has taken, the newest first. -/
abbrev SessionHistory := List MessageRecord

namespace SessionHistory

/-- The latest image message, whatever became of it. -/
def lastImage? (h : SessionHistory) : Option Message := (h.find? (·.isImage)).map (·.message)

/-- The latest image message of a frame that begins, whatever became of it. -/
def lastStarted? (h : SessionHistory) : Option Message := (h.find? (·.isStarted)).map (·.message)

/-- The latest image message that was taken to its end. -/
def lastDelivered? (h : SessionHistory) : Option Message := (h.find? (·.isDelivered)).map (·.message)

/-- The frame of the latest image message. -/
def syncId? (h : SessionHistory) : Option Nat := h.lastImage?.map (·.header.syncId)

section Cons

variable (r : MessageRecord) (h : SessionHistory)

theorem lastImage?_cons : lastImage? (r :: h) = if r.isImage then some r.message else h.lastImage? := by
  cases hr : r.isImage <;> simp [lastImage?, hr]

theorem lastStarted?_cons : lastStarted? (r :: h) = if r.isStarted then some r.message else h.lastStarted? := by
  cases hr : r.isStarted <;> simp [lastStarted?, hr]

theorem lastDelivered?_cons :
    lastDelivered? (r :: h) = if r.isDelivered then some r.message else h.lastDelivered? := by
  cases hr : r.isDelivered <;> simp [lastDelivered?, hr]

theorem lastImage?_of_isImage {r : MessageRecord} (hi : r.isImage = true) : lastImage? (r :: h) = some r.message := by
  rw [lastImage?_cons, if_pos hi]

theorem syncId?_of_isImage {r : MessageRecord} (hi : r.isImage = true) :
    syncId? (r :: h) = some r.message.header.syncId := by
  rw [syncId?, lastImage?_of_isImage h hi, Option.map_some]

end Cons

end SessionHistory

/-- The record of a message that the controller takes. -/
def Controller.record {μ : Type} (decoders : Decoders μ) (c : Controller μ) (m : Message) : MessageRecord :=
  ⟨m, (c.take decoders m).result, c.takenBuffers decoders.codec m⟩

/-- A controller with what it has been told. -/
structure SessionRun (μ : Type) where
  controller : Controller μ
  history : SessionHistory

namespace SessionRun

variable {μ : Type}

/-- The run with one message more. -/
def next (decoders : Decoders μ) (r : SessionRun μ) (m : Message) : SessionRun μ :=
  ⟨(r.controller.take decoders m).next, r.controller.record decoders m :: r.history⟩

/-- The run of messages to a controller whose past is not recorded. -/
def ofMessages (decoders : Decoders μ) (c : Controller μ) (messages : List Message) : SessionRun μ :=
  messages.foldl (next decoders) ⟨c, []⟩

/-- What each message keeps holds after every run. -/
theorem induct {decoders : Decoders μ} {c : Controller μ} {motive : SessionRun μ → Prop} (start : motive ⟨c, []⟩)
    (next : ∀ r m, motive r → motive (r.next decoders m)) (messages : List Message) :
    motive (ofMessages decoders c messages) := by
  unfold ofMessages
  generalize SessionRun.mk c [] = r at start
  induction messages generalizing r with
  | nil => exact start
  | cons m messages ih => exact ih _ (next r m start)

end SessionRun

/-! ## Small messages -/

/-- Decoders that look at the first byte of a payload. It is the column of a pixel in the first row, or the
latest frame that metadata tells of. Every alias borrows alpha. -/
def Decoders.firstByte : Decoders Nat where
  codec :=
    { decode := fun dataType bytes layout =>
        let numChan := match dataType.target with
          | .channel kind => kind.numChan
          | _ => 1
        some (.onePixel layout (bytes.data.getD 0 0).toNat 0 (.replicate numChan .one))
      decodeReference := fun _ => some .alpha }
  decodeMetadata _ _ bytes := (bytes.data.getD 0 0).toNat
  newestSyncId newest := newest

/-- A message that begins a frame of two pixels. -/
def Message.start (syncId : Nat) (buffers : List NamedBuffer) : Message :=
  ⟨{ syncId, status := .started, progress := .zero, viewport := ⟨0, 0, 1, 0⟩ }, buffers, ⟨⟨0⟩, 0⟩⟩

end ProgressiveFrame
