import ProgressiveFrame.Proofs.Session.Isolation
import ProgressiveFrame.Proofs.Session.LeftOut
import ProgressiveFrame.Proofs.Session.Memory

/-!
# Messages without an image

A message without an image has a header and buffers like any other, and all that it can do is to let the progress fall
back to zero.

* `Controller.Follows`: a session that has taken such messages beside one that has not. They are the same but for the
  progress, which is the same or zero in the first one, and for what metadata has told.
* `Follows.aside`, `Follows.image`, `Follows.readout`: each event keeps this, a message without an image in the first
  session alone. An image message that succeeds sets the progress in both (`IngestStep.Follows`).
* `Controller.follows_withoutAsides`: so at every step of a run, the session is as it would be without the messages that
  had no image, and what it answers is the same.
-/

namespace ProgressiveFrame

namespace SessionEvent

/-- Whether the event is a message without an image. -/
def isAside : SessionEvent → Bool
  | .message m => !m.isImage
  | .readout .. | .setResetMode _ => false

/-- The events that are no messages without an image. -/
def withoutAsides (events : List SessionEvent) : List SessionEvent := events.filter (!·.isAside)

end SessionEvent

variable {μ : Type} {decoders : Decoders μ}

namespace Controller

/-- The first session differs from the second one at most in what metadata has told and in the progress, which can have
fallen back to zero. -/
structure Follows (c c' : Controller μ) : Prop where
  resetMode : c.resetMode = c'.resetMode
  parallelDecode : c.parallelDecode = c'.parallelDecode
  store : c.store = c'.store
  session : c.session = { c'.session with progress := c.session.progress }
  progress : c.session.progress = c'.session.progress ∨ c.session.progress = .zero
  activity : c.activity = c'.activity

end Controller

/-- A message does the same to a session that follows another one. If it succeeds, it makes the progress the same. -/
structure IngestStep.Follows (step step' : IngestStep μ) : Prop where
  result : step.result = step'.result
  /-- The start of a frame is reported in both or in neither. -/
  started : Option.Rel Controller.Follows step.started step'.started
  next : step.next.Follows step'.next
  progress : step'.result = .ok () → step.next.session.progress = step'.next.session.progress

namespace Controller

variable {c c' : Controller μ}

/-- A message without an image is always accepted and never reported. -/
theorem take_of_aside {m : Message} (hi : m.isImage = false) :
    c.take decoders m = ⟨c.ingestMetadata decoders m.buffers, none, .ok ()⟩ :=
  if_pos (by simpa [Message.isImage] using hi)

namespace Follows

theorem refl (c : Controller μ) : c.Follows c := ⟨rfl, rfl, rfl, rfl, .inl rfl, rfl⟩

/-- Sessions that follow each other differ in two fields. -/
theorem exists_eq (h : c.Follows c') : ∃ memory progress, (progress = c'.session.progress ∨ progress = .zero) ∧
    c = { c' with metadata := memory, session := { c'.session with progress } } := by
  refine ⟨c.metadata, c.session.progress, h.progress, ?_⟩
  obtain ⟨hmode, hparallel, hstore, hsession, -, hactivity⟩ := h
  obtain ⟨_, _, _, _, _, _⟩ := c
  subst hmode hparallel hstore hactivity
  simp only [Controller.mk.injEq, true_and, and_true]
  exact hsession

/-- A message without an image is no concern of the session that has not taken it. -/
theorem aside (h : c.Follows c') {m : Message} (hi : m.isImage = false) : (c.take decoders m).next.Follows c' := by
  rw [take_of_aside hi, ingestMetadata, SessionState.noteNewest_eq]
  refine { h with session := ?_, progress := ?_ }
  · rw [h.session]
  · simp only
    split
    · exact .inr rfl
    · exact h.progress

/-- The start of a frame is reported in both sessions or in neither. -/
theorem startFor (h : c.Follows c') (header : FrameHeader) (a : Arrival) :
    Option.Rel Follows (c.startFor header a) (c'.startFor header a) := by
  have hstarts : c.startsFrame header = c'.startsFrame header := by
    rw [startsFrame, startsFrame, SessionState.changesFrame, SessionState.changesFrame, h.session]
  unfold Controller.startFor
  rw [hstarts]
  split
  · obtain ⟨memory, progress, hprogress, rfl⟩ := h.exists_eq
    rw [beginMessage_eq, beginMessage_eq]
    exact .some ⟨rfl, rfl, rfl, rfl, hprogress, rfl⟩
  · exact .none

/-- Buffers do the same in both sessions. -/
theorem delivery (h : c.Follows c') (decoders : Decoders μ) (m : Message) :
    (c.delivery decoders m).2 = (c'.delivery decoders m).2 ∧
      (c.delivery decoders m).1.store = (c'.delivery decoders m).1.store ∧
      ((c'.delivery decoders m).2 = .ok () →
        (c.delivery decoders m).1.skipped = (c'.delivery decoders m).1.skipped) := by
  obtain ⟨memory, progress, -, rfl⟩ := h.exists_eq
  exact Delivery.run_congr ⟨c'.storeBefore m.header, c'.metadata, []⟩ ⟨c'.storeBefore m.header, memory, []⟩ rfl rfl
    m.buffers

/-- An image message is answered alike in both sessions and reported alike. It keeps them as they are to each other,
and sets the progress in both when it succeeds. -/
theorem image (h : c.Follows c') {m : Message} (hi : m.isImage = true) :
    (c.take decoders m).Follows (c'.take decoders m) := by
  have hstart := h.startFor m.header m.arrival
  obtain ⟨hresult, hstore, hskipped⟩ := h.delivery decoders m
  rw [take_of_image hi, take_of_image hi]
  obtain ⟨memory, progress, hprogress, rfl⟩ := h.exists_eq
  simp only [hresult, hstore]
  cases hans : (c'.delivery decoders m).2 with
  | ok =>
    simp only [hskipped hans]
    exact ⟨rfl, hstart, ⟨rfl, rfl, rfl, rfl, .inl rfl, rfl⟩, fun _ => rfl⟩
  | error e => exact ⟨rfl, hstart, ⟨rfl, rfl, rfl, rfl, hprogress, rfl⟩, nofun⟩

theorem readout (h : c.Follows c') (source : ReadoutSource) (o : Orientation) (roi : Option Viewport) :
    (c.readout source o roi).2 = (c'.readout source o roi).2 ∧
      (c.readout source o roi).1.Follows (c'.readout source o roi).1 := by
  obtain ⟨memory, progress, hprogress, rfl⟩ := h.exists_eq
  exact ⟨rfl, rfl, rfl, rfl, rfl, hprogress, rfl⟩

/-- A session follows one that is told the same but for messages without an image. -/
theorem afterAll (h : c.Follows c') (events : List SessionEvent) :
    (c.afterAll decoders events).Follows (c'.afterAll decoders (SessionEvent.withoutAsides events)) := by
  induction events generalizing c c' with
  | nil => exact h
  | cons e events ih =>
    cases e with
    | message m =>
      cases hi : m.isImage with
      | false =>
        rw [SessionEvent.withoutAsides, List.filter_cons_of_neg (by simp [SessionEvent.isAside, hi])]
        exact ih (h.aside hi)
      | true =>
        rw [SessionEvent.withoutAsides, List.filter_cons_of_pos (by simp [SessionEvent.isAside, hi])]
        exact ih (h.image hi).next
    | readout source o roi => exact ih (h.readout source o roi).2
    | setResetMode mode => exact ih { h with resetMode := rfl }

end Follows

/-- Messages without an image concern nothing but the progress. After any run of events, the session is as it would be
without those messages, but for the progress, which can be zero instead, and for what metadata has told. Every readout
shows the same; the next message with an image is answered and reported alike, and if it succeeds it makes the progress
the same; the next one without an image is always accepted and never reported. -/
theorem follows_withoutAsides (decoders : Decoders μ) (c : Controller μ) (events : List SessionEvent) :
    let full := c.afterAll decoders events
    let bare := c.afterAll decoders (SessionEvent.withoutAsides events)
    full.Follows bare ∧
      (∀ source o roi, (full.readout source o roi).2 = (bare.readout source o roi).2) ∧
      (∀ m : Message, m.isImage = true → (full.take decoders m).Follows (bare.take decoders m)) ∧
      ∀ m : Message, m.isImage = false → (full.take decoders m).next.Follows bare ∧
        (full.take decoders m).started = none ∧ (full.take decoders m).result = .ok () := by
  intro full bare
  have h : full.Follows bare := (Follows.refl c).afterAll events
  refine ⟨h, fun source o roi => (h.readout source o roi).1, fun m hi => h.image hi, fun m hi => ⟨h.aside hi, ?_⟩⟩
  rw [take_of_aside hi]
  exact ⟨rfl, rfl⟩

/-- Frame 7 is halfway when a message without an image comes. It says of itself that it starts frame 9 of another size,
has a pixel, and tells that the sender is at frame 9. The progress is zero then, and nothing else has changed. It is
right again once the next message with an image has come. -/
theorem follows_withoutAsides_nextFrame :
    let image (progress : Binary32) (b : NamedBuffer) : Message :=
      ⟨{ (Message.start 7 []).header with progress }, [b], ⟨⟨0⟩, 0⟩⟩
    let aside : Message := ⟨{ (Message.start 9 []).header with
      progress := FrameHeader.metadataOnlyProgress
      viewport := ⟨0, 0, 8, 8⟩ }, [⟨"rgba", .beauty, ⟨#[1]⟩⟩, ⟨"auxInfo", .unrecognized, ⟨#[9]⟩⟩], ⟨⟨0⟩, 0⟩⟩
    let half : Binary32 := Scalar.ofNat 1 / Scalar.ofNat 2
    let last := image .one ⟨"rgba", .beauty, ⟨#[1]⟩⟩
    let events := [.message (image half ⟨"rgba", .beauty, ⟨#[0]⟩⟩), .message aside]
    let c := Controller.new .full false ⟨1⟩ 0
    let full := c.afterAll .firstByte events
    let bare := c.afterAll .firstByte (SessionEvent.withoutAsides events)
    (full.Follows bare ∧ bare.session.progress = half ∧ full.session.progress = .zero) ∧
      (full.take .firstByte last).Follows (bare.take .firstByte last) ∧
      (full.take .firstByte last).next.session.progress = .one ∧
      (full.take .firstByte aside).next.Follows bare := by
  intro image aside half last events c full bare
  obtain ⟨hfollows, -, himage, haside⟩ := follows_withoutAsides .firstByte c events
  have hlast := himage last (by decide)
  refine ⟨⟨hfollows, by decide +kernel, by decide +kernel⟩, hlast, ?_, (haside aside (by decide)).1⟩
  exact (hlast.progress (by decide +kernel)).trans (by decide +kernel)

end Controller

end ProgressiveFrame
