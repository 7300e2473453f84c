import Mathlib.Algebra.GroupWithZero.Nat
import ProgressiveFrame.Proofs.Session.Refusal

/-!
# The memory of a session

What a controller remembers can be told from the messages it has taken, and different parts of it follow
different messages.

* The frame and the viewport are those of the latest image message, even one that was refused, and the
  guides of the denoiser those of the latest image message of a frame that begins.
* What describes the picture is that of the latest image message that was delivered
  (`SessionState.Describes`).
* The metadata decoder has seen the metadata among the buffers that were taken (`SessionHistory.memory`).
* The progress is that of the latest delivery, until metadata finds the sender at a later frame
  (`SessionHistory.isOvertaken`).

`Remembers` says all of it. It holds of a new controller and is kept by each of the three things that a
message can do (`Remembers.next`), so it holds after every run (`remembers_ofMessages`).
-/

namespace ProgressiveFrame

/-- What the metadata decoder remembers once it has seen some buffers, one after another. -/
def Decoders.memoryAfter {μ : Type} (decoders : Decoders μ) (memory : μ) (bs : List NamedBuffer) : μ :=
  bs.foldl (fun memory b => decoders.decodeMetadata memory b.name b.bytes) memory

namespace SessionHistory

variable {μ : Type}

/-- What the metadata decoder remembers of all messages, from what it remembered before them. -/
def memory (decoders : Decoders μ) (start : μ) : SessionHistory → μ
  | [] => start
  | r :: h => decoders.memoryAfter (memory decoders start h) r.metadata

/-- Whether a message without an image has found, since the latest delivery and with its own buffers decoded, that the
sender was at a later frame than the latest image message before it. -/
def isOvertaken (decoders : Decoders μ) (start : μ) : SessionHistory → Bool
  | [] => false
  | r :: h =>
    if r.isDelivered then false
    else if r.isImage then isOvertaken decoders start h
    else
      let newest := decoders.newestSyncId (memory decoders start (r :: h))
      decide (0 < (syncId? h).getD 0 ∧ (syncId? h).getD 0 < newest) || isOvertaken decoders start h

/-- The number of image messages that were taken to their end. -/
def deliveries (h : SessionHistory) : Nat := h.countP (·.isDelivered)

end SessionHistory

/-- What the session says of the picture is what a message says of it. Nothing is known without a message. -/
structure SessionState.Describes (s : SessionState) (codec : Codec) (m? : Option Message) : Prop where
  status : s.status = m?.map (·.header.status)
  viewId : s.viewId = (m?.map (·.header.viewId)).getD 0
  coarsePass : s.coarsePass = (m?.map (·.header.coarsePass)).getD .unknown
  roi : s.roi = m?.bind (·.header.roi)
  machineId : s.machineId = (m?.map (·.header.machineId)).getD (-1)
  snapshotMicros : s.snapshotMicros = (m?.map (·.header.snapshotMicros)).getD 0
  latency : s.latency = (m?.map fun m => m.arrival.latencySince m.header.snapshotMicros).getD .zero
  /-- The size is that of all buffers, taken or not. -/
  messageSize : s.messageSize = (m?.map fun m => (m.buffers.map (·.bytes.size)).sum).getD 0
  skipped : s.skipped = (m?.map fun m => m.skippedNames codec).getD []

/-- The controller remembers of its messages what it should. At first the metadata decoder remembered `start`. -/
structure Remembers {μ : Type} (decoders : Decoders μ) (start : μ) (c : Controller μ) (h : SessionHistory) : Prop where
  syncId : c.session.syncId = h.syncId?
  viewport : c.store.viewport = (h.lastImage?.map (·.header.viewport)).getD .origin
  albedoInput : c.session.albedoInput = (h.lastStarted?.map (·.header.albedoInput)).getD ""
  normalInput : c.session.normalInput = (h.lastStarted?.map (·.header.normalInput)).getD ""
  describes : c.session.Describes decoders.codec h.lastDelivered?
  metadata : c.metadata = h.memory decoders start
  progress : c.session.progress =
    if h.isOvertaken decoders start then .zero else (h.lastDelivered?.map (·.header.progress)).getD .zero
  progress_not_negative : Scalar.lt c.session.progress Scalar.zero = false
  activity : c.activity = h.deliveries

theorem Binary32.zero_not_negative : Scalar.lt Binary32.zero Scalar.zero = false := by decide

/-- The payload of buffers is the sum of their sizes. -/
theorem NamedBuffer.payloadSize_eq_sum (bs : List NamedBuffer) : payloadSize bs = (bs.map (·.bytes.size)).sum := by
  induction bs with
  | nil => rfl
  | cons b bs ih =>
    rw [List.map_cons, List.sum_cons, ← ih]
    rfl

/-- Metadata touches nothing but the progress. -/
theorem SessionState.noteNewest_eq (s : SessionState) (newest : Nat) :
    s.noteNewest newest = { s with
      progress := if 0 < s.syncId.getD 0 ∧ s.syncId.getD 0 < newest then .zero else s.progress } := by
  unfold noteNewest
  by_cases h : 0 < s.syncId.getD 0 ∧ s.syncId.getD 0 < newest
  · simp only [if_pos h]
  · simp only [if_neg h]

/-- The metadata decoder sees the metadata among the buffers that are taken. -/
theorem Controller.metadata_take {μ : Type} (decoders : Decoders μ) (c : Controller μ) (m : Message) :
    (c.take decoders m).next.metadata = decoders.memoryAfter c.metadata (c.record decoders m).metadata := by
  cases hm : m.isImage with
  | false =>
    have hmetadata : (c.record decoders m).metadata = m.buffers.filter (!·.isEmpty) := by
      rw [MessageRecord.metadata, record, takenBuffers, hm, if_neg Bool.false_ne_true]
      refine List.filter_congr fun b _ => ?_
      rw [Bool.eq_iff_iff]
      simp only [MessageRecord.isImage, hm, NamedBuffer.isEmpty, Bool.not_eq_true', beq_eq_false_iff_ne,
        decide_eq_true_eq, Bool.false_eq_true, false_implies, and_true]
    have haside : m.header.isMetadataOnly = true := by simpa [Message.isImage] using hm
    rw [hmetadata, take, ingest, haside, if_pos rfl, ingestMetadata, Decoders.memoryAfter]
  | true =>
    have hmetadata : (c.record decoders m).metadata =
        (NamedBuffer.fitting decoders.codec (c.storeBefore m.header) m.buffers).filter
          fun b => !b.isEmpty && b.isMetadata := by
      rw [MessageRecord.metadata, record, takenBuffers, hm, if_pos rfl]
      refine List.filter_congr fun b _ => ?_
      rw [Bool.eq_iff_iff]
      simp only [MessageRecord.isImage, hm, NamedBuffer.isEmpty, NamedBuffer.isMetadata, Bool.and_eq_true,
        Bool.not_eq_true', beq_eq_false_iff_ne, decide_eq_true_eq, forall_const, List.contains_iff_mem]
    rw [hmetadata, take_of_image hm, delivery, Delivery.metadata_run, NamedBuffer.metadataAfter, Decoders.memoryAfter]

namespace Remembers

variable {μ : Type} {decoders : Decoders μ} {start : μ} {c : Controller μ} {h : SessionHistory} {r : MessageRecord}

theorem new (decoders : Decoders μ) (mode : ResetMode) (parallel : Bool) (window : Duration) (start : μ) :
    Remembers decoders start (Controller.new mode parallel window start) [] where
  syncId := rfl
  viewport := rfl
  albedoInput := rfl
  normalInput := rfl
  describes := ⟨rfl, rfl, rfl, rfl, rfl, rfl, rfl, rfl, rfl⟩
  metadata := rfl
  progress := rfl
  progress_not_negative := Binary32.zero_not_negative
  activity := rfl

/-- A message without an image is no news but for the progress. -/
theorem aside (hr : Remembers decoders start c h) (hi : r.isImage = false) {memory : μ}
    (hm : memory = decoders.memoryAfter c.metadata r.metadata) :
    Remembers decoders start { c with
      metadata := memory
      session := c.session.noteNewest (decoders.newestSyncId memory) } (r :: h) := by
  have hs : r.isStarted = false := by simp [MessageRecord.isStarted, hi]
  have hd : r.isDelivered = false := by simp [MessageRecord.isDelivered, hi]
  have himage : SessionHistory.lastImage? (r :: h) = h.lastImage? := by
    simp [SessionHistory.lastImage?_cons, hi]
  have hstarted : SessionHistory.lastStarted? (r :: h) = h.lastStarted? := by
    simp [SessionHistory.lastStarted?_cons, hs]
  have hdelivered : SessionHistory.lastDelivered? (r :: h) = h.lastDelivered? := by
    simp [SessionHistory.lastDelivered?_cons, hd]
  have hsync : SessionHistory.syncId? (r :: h) = h.syncId? := by
    rw [SessionHistory.syncId?, himage, SessionHistory.syncId?]
  have hmemory : memory = SessionHistory.memory decoders start (r :: h) := by
    rw [hm, hr.metadata, SessionHistory.memory]
  have hovertaken : SessionHistory.isOvertaken decoders start (r :: h) =
      (decide (0 < h.syncId?.getD 0 ∧ h.syncId?.getD 0 < decoders.newestSyncId memory) ||
        h.isOvertaken decoders start) := by
    simp [SessionHistory.isOvertaken, hi, hd, hmemory]
  rw [SessionState.noteNewest_eq, hr.syncId]
  refine ⟨?_, ?_, ?_, ?_, ?_, hmemory, ?_, ?_, ?_⟩
  · rw [hsync]
  · rw [himage]
    exact hr.viewport
  · rw [hstarted]
    exact hr.albedoInput
  · rw [hstarted]
    exact hr.normalInput
  · rw [hdelivered]
    exact { hr.describes with }
  · rw [hovertaken, hdelivered]
    by_cases hlater : 0 < h.syncId?.getD 0 ∧ h.syncId?.getD 0 < decoders.newestSyncId memory
    · simp [hlater]
    · simpa [hlater] using hr.progress
  · by_cases hlater : 0 < h.syncId?.getD 0 ∧ h.syncId?.getD 0 < decoders.newestSyncId memory
    · simpa [hlater] using Binary32.zero_not_negative
    · simpa [hlater] using hr.progress_not_negative
  · rw [SessionHistory.deliveries, List.countP_cons_of_neg (by simp [hd])]
    exact hr.activity

/-- The guides of the denoiser are those of the latest message of a frame that begins. -/
theorem guides_noteFrame (hr : Remembers decoders start c h) (hi : r.isImage = true) (a : Arrival) :
    (c.session.noteFrame r.message.header a).albedoInput =
        ((SessionHistory.lastStarted? (r :: h)).map (·.header.albedoInput)).getD "" ∧
      (c.session.noteFrame r.message.header a).normalInput =
        ((SessionHistory.lastStarted? (r :: h)).map (·.header.normalInput)).getD "" := by
  rw [SessionHistory.lastStarted?_cons]
  by_cases hs : r.message.header.status = .started
  · simp [SessionState.noteFrame, MessageRecord.isStarted, hi, hs]
  · simp [SessionState.noteFrame, MessageRecord.isStarted, hs, hr.albedoInput, hr.normalInput]

/-- An image message that is delivered is the news in every respect. -/
theorem delivered (hr : Remembers decoders start c h) (hi : r.isImage = true) (hok : r.result = .ok ())
    {c' : Controller μ} (hv : c'.store.viewport = r.message.header.viewport) (ha : c'.activity = c.activity + 1)
    (hm : c'.metadata = decoders.memoryAfter c.metadata r.metadata)
    (hsession : c'.session = (c.session.noteFrame r.message.header r.message.arrival).noteDelivery
      r.message.header r.message.arrival (NamedBuffer.payloadSize r.message.buffers)
      (r.message.skippedNames decoders.codec)) :
    Remembers decoders start c' (r :: h) := by
  have hd : r.isDelivered = true := by simp [MessageRecord.isDelivered, hi, hok]
  have hdelivered : SessionHistory.lastDelivered? (r :: h) = some r.message := by
    simp [SessionHistory.lastDelivered?_cons, hd]
  have hovertaken : SessionHistory.isOvertaken decoders start (r :: h) = false := by
    simp [SessionHistory.isOvertaken, hd]
  obtain ⟨halbedo, hnormal⟩ := hr.guides_noteFrame hi r.message.arrival
  refine ⟨?_, ?_, ?_, ?_, ?_, by rw [hm, hr.metadata, SessionHistory.memory], ?_, ?_, ?_⟩
  · rw [hsession, SessionHistory.syncId?_of_isImage h hi]
    rfl
  · rw [hv, SessionHistory.lastImage?_of_isImage h hi]
    rfl
  · rw [hsession]
    exact halbedo
  · rw [hsession]
    exact hnormal
  · rw [hsession, hdelivered]
    exact ⟨rfl, rfl, rfl, rfl, rfl, rfl, rfl, NamedBuffer.payloadSize_eq_sum _, rfl⟩
  · rw [hsession, hovertaken, hdelivered]
    rfl
  · rw [hsession]
    have himg : (!r.message.header.isMetadataOnly) = true := hi
    exact (Bool.not_eq_true' _).mp himg
  · rw [ha, hr.activity, SessionHistory.deliveries, SessionHistory.deliveries, List.countP_cons_of_pos hd]

/-- An image message that is refused leaves its frame, its viewport and, where a frame begins, the guides. -/
theorem refused (hr : Remembers decoders start c h) (hi : r.isImage = true) (hne : r.result ≠ .ok ())
    {c' : Controller μ} (hv : c'.store.viewport = r.message.header.viewport) (ha : c'.activity = c.activity)
    (hm : c'.metadata = decoders.memoryAfter c.metadata r.metadata)
    (hsession : c'.session = c.session.noteFrame r.message.header r.message.arrival) :
    Remembers decoders start c' (r :: h) := by
  have hd : r.isDelivered = false := by simp [MessageRecord.isDelivered, hne]
  have hdelivered : SessionHistory.lastDelivered? (r :: h) = h.lastDelivered? := by
    simp [SessionHistory.lastDelivered?_cons, hd]
  have hovertaken : SessionHistory.isOvertaken decoders start (r :: h) = h.isOvertaken decoders start := by
    simp [SessionHistory.isOvertaken, hd, hi]
  obtain ⟨halbedo, hnormal⟩ := hr.guides_noteFrame hi r.message.arrival
  refine ⟨?_, ?_, ?_, ?_, ?_, by rw [hm, hr.metadata, SessionHistory.memory], ?_, ?_, ?_⟩
  · rw [hsession, SessionHistory.syncId?_of_isImage h hi]
    rfl
  · rw [hv, SessionHistory.lastImage?_of_isImage h hi]
    rfl
  · rw [hsession]
    exact halbedo
  · rw [hsession]
    exact hnormal
  · rw [hsession, hdelivered]
    exact { hr.describes with }
  · rw [hsession, hovertaken, hdelivered]
    exact hr.progress
  · rw [hsession]
    exact hr.progress_not_negative
  · rw [ha, hr.activity, SessionHistory.deliveries, SessionHistory.deliveries,
      List.countP_cons_of_neg (by simp [hd])]

/-- Every message keeps the memory right. -/
theorem next {r : SessionRun μ} (hr : Remembers decoders start r.controller r.history) (m : Message) :
    Remembers decoders start (r.next decoders m).controller (r.next decoders m).history := by
  have htook := r.controller.took decoders m
  have hmetadata := r.controller.metadata_take decoders m
  unfold SessionRun.next Controller.record at *
  generalize r.controller.takenBuffers decoders.codec m = taken at hmetadata
  generalize r.controller.take decoders m = step at htook hmetadata
  cases htook with
  | aside hm => exact hr.aside (r := ⟨m, .ok (), taken⟩) hm hmetadata
  | delivered hm hw =>
    refine hr.delivered (r := ⟨m, .ok (), taken⟩) hm rfl ?_ rfl hmetadata rfl
    exact (FrameStore.viewport_writeAll _ _).trans (Controller.viewport_beginMessage ..)
  | @refused memory e hm hw =>
    refine hr.refused (r := ⟨m, .error e, taken⟩) hm nofun ?_ ?_ hmetadata ?_
    · exact (FrameStore.viewport_writeAll _ _).trans (Controller.viewport_beginMessage ..)
    · exact Controller.activity_beginMessage ..
    · exact Controller.session_beginMessage ..

/-- A controller that remembers rightly what it was told before goes on to do so. -/
theorem ofMessages (hr : Remembers decoders start c []) (messages : List Message) :
    Remembers decoders start (SessionRun.ofMessages decoders c messages).controller
      (SessionRun.ofMessages decoders c messages).history :=
  SessionRun.induct (motive := fun r => Remembers decoders start r.controller r.history) hr
    (fun _ m hr => hr.next m) messages

end Remembers

namespace SessionRun

/-- What a controller remembers is a function of the messages it has taken and of their answers. -/
theorem remembers_ofMessages {μ : Type} (decoders : Decoders μ) (mode : ResetMode) (parallel : Bool)
    (window : Duration) (memory : μ) (messages : List Message) :
    Remembers decoders memory (ofMessages decoders (.new mode parallel window memory) messages).controller
      (ofMessages decoders (.new mode parallel window memory) messages).history :=
  (Remembers.new decoders mode parallel window memory).ofMessages messages

/-- A delivery of five bytes, in a pixel, in metadata that tells of frame 5, and in a buffer that is left out. Metadata
without an image then tells of frame 9, which has overtaken frame 7. -/
theorem remembers_ofMessages_overtaken :
    let picture : Message := ⟨{ syncId := 7, status := .started, progress := .one, viewport := ⟨0, 0, 1, 0⟩ },
      [⟨"rgba", .beauty, ⟨#[1]⟩⟩, ⟨"auxInfo", .aovGeneric, ⟨#[5]⟩⟩, ⟨"old", .unrecognized, ⟨#[1, 2, 3]⟩⟩,
        ⟨"rgba", .beauty, ⟨#[]⟩⟩], ⟨⟨0⟩, 0⟩⟩
    let news : Message :=
      ⟨.metadataOnly 0, [⟨"news", .unrecognized, ⟨#[9]⟩⟩, ⟨"auxInfo", .aovGeneric, ⟨#[]⟩⟩], ⟨⟨0⟩, 0⟩⟩
    let before := (ofMessages .firstByte (.new .full false ⟨1⟩ 0) [picture]).controller
    let after := (ofMessages .firstByte (.new .full false ⟨1⟩ 0) [picture, news]).controller
    (before.metadata = 5 ∧ before.session.progress = .one ∧ before.session.messageSize = 5 ∧
      before.session.skipped = ["old"]) ∧
    (after.metadata = 9 ∧ after.session.progress = .zero ∧ after.session.messageSize = 5 ∧
      after.session.syncId = some 7 ∧ after.activity = 1) := by
  intro picture news before after
  have hbefore := remembers_ofMessages .firstByte .full false ⟨1⟩ 0 [picture]
  have hafter := remembers_ofMessages .firstByte .full false ⟨1⟩ 0 [picture, news]
  refine ⟨⟨?_, ?_, ?_, ?_⟩, ?_, ?_, ?_, ?_, ?_⟩
  · exact hbefore.metadata.trans (by decide +kernel)
  · exact hbefore.progress.trans (by decide +kernel)
  · exact hbefore.describes.messageSize.trans (by decide +kernel)
  · exact hbefore.describes.skipped.trans (by decide +kernel)
  · exact hafter.metadata.trans (by decide +kernel)
  · exact hafter.progress.trans (by decide +kernel)
  · exact hafter.describes.messageSize.trans (by decide +kernel)
  · exact hafter.syncId.trans (by decide +kernel)
  · exact hafter.activity.trans (by decide +kernel)

end SessionRun

end ProgressiveFrame
