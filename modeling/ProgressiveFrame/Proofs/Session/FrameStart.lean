import ProgressiveFrame.Proofs.Session.Memory

/-!
# The start of a frame

A frame begins with an image message that says so and names another frame than the image message before
it (`Message.Opens`). Whether that message was refused does not matter.

* **The report**: it is made for the messages that open a frame and for no other, after the reset and
  before the first write (`OpensRightly.reported`, `seen`, `merged`).
* **No other reset**: every other message writes into the store it finds, which is a fresh one only when
  the viewport differs (`continued`, `untouched`). So a start that comes late or again takes nothing away
  (`kept`).

All of it holds for every message after every run (`opensRightly_ofMessages`).
-/

namespace ProgressiveFrame

/-- The message begins another frame than that of the image message before it. Every frame is another one
when there was none. -/
def Message.Opens (m : Message) (h : SessionHistory) : Prop :=
  m.isImage = true ∧ m.header.status = .started ∧ h.syncId? ≠ some m.header.syncId

/-- No pixel of any channel is covered. -/
def FrameStore.Uncovered (s : FrameStore) : Prop :=
  ∀ p c, s.content p = some (.owned c) → ∀ x y, c.mask.isSet x y = false

/-- What a message does to a run, as to the start of frames. -/
structure OpensRightly {μ : Type} (decoders : Decoders μ) (r : SessionRun μ) (m : Message) : Prop where
  /-- The start is reported for the messages that open a frame. -/
  reported : (r.controller.take decoders m).started.isSome = true ↔ m.Opens r.history
  /-- The report sees a store that has been reset, the new frame, and the status of the latest delivery. -/
  seen : ∀ c, (r.controller.take decoders m).started = some c →
    c.store = (r.controller.storeFor m.header.viewport).reset r.controller.resetMode ∧ c.store.Uncovered ∧
      c.session.syncId = some m.header.syncId ∧
      c.session.status = r.history.lastDelivered?.map (·.header.status)
  /-- What is written is written after the report. -/
  merged : ∀ c, (r.controller.take decoders m).started = some c →
    (r.controller.take decoders m).next.store = (c.store.writeAll (m.writes decoders.codec)).1
  /-- Without a report, an image is written into the store that is there, or into an empty one when the
  viewport differs. -/
  continued : m.isImage = true → ¬ m.Opens r.history →
    (r.controller.take decoders m).next.store =
      ((r.controller.storeFor m.header.viewport).writeAll (m.writes decoders.codec)).1
  /-- Without an image, nothing is written. -/
  untouched : m.isImage = false → (r.controller.take decoders m).next.store = r.controller.store
  /-- What has been received stays, but for what the message itself covers. -/
  kept : ¬ m.Opens r.history → (m.isImage = true → r.controller.store.viewport = m.header.viewport) →
    ∀ p c, r.controller.store.content p = some (.owned c) →
      ∃ c', (r.controller.take decoders m).next.store.content p = some (.owned c') ∧
        c.Keeps c' (Write.updatesOn (m.writes decoders.codec) p)

namespace FrameStore

theorem uncovered_reset (s : FrameStore) (mode : ResetMode) : (s.reset mode).Uncovered := by
  intro p c hc x y
  rw [content_reset] at hc
  obtain ⟨aov, -, haov⟩ := Option.map_eq_some_iff.mp hc
  cases aov with
  | reference kind => cases haov
  | owned before =>
    have hmask : c.mask = before.mask.clear := by
      simp only [Aov.restart, Aov.owned.injEq] at haov
      subst haov
      split <;> rfl
    rw [PixelMask.isSet, hmask, PixelMask.isSlotSet_clear, Bool.and_false]

end FrameStore

namespace SessionRun

variable {μ : Type} {decoders : Decoders μ} {memory : μ}

/-- The store of a session is always made by requests. -/
theorem assembled_ofMessages (decoders : Decoders μ) (mode : ResetMode) (parallel : Bool) (window : Duration)
    (memory : μ) (messages : List Message) :
    (ofMessages decoders (.new mode parallel window memory) messages).controller.store.Assembled := by
  refine induct (motive := fun r => r.controller.store.Assembled) (FrameStore.assembled_empty .origin)
    (fun r m ha => ?_) messages
  exact Controller.store_take_induct FrameStore.assembled_empty (fun _ q ha => ha.serve q) ha m

/-- A message opens a frame exactly if the controller finds that it does. -/
theorem startsFrame_iff_opens {r : SessionRun μ} (hr : Remembers decoders memory r.controller r.history) {m : Message}
    (hm : m.isImage = true) : r.controller.startsFrame m.header = true ↔ m.Opens r.history := by
  rw [Controller.startsFrame_iff, hr.syncId]
  exact ⟨fun h => ⟨hm, h⟩, fun h => h.2⟩

/-- A report comes from an image message that opens a frame, once its beginning has been dealt with. -/
theorem started_eq_some_iff {r : SessionRun μ} (hr : Remembers decoders memory r.controller r.history) {m : Message}
    {c : Controller μ} : (r.controller.take decoders m).started = some c ↔
      m.Opens r.history ∧ r.controller.beginMessage m.header m.arrival = c := by
  rw [Controller.started_take]
  cases hm : m.isImage with
  | false => simp [Message.Opens, hm]
  | true =>
    rw [← startsFrame_iff_opens hr hm, Controller.startFor]
    cases r.controller.startsFrame m.header with
    | false => simp
    | true => exact ⟨fun h => ⟨rfl, Option.some.inj h⟩, fun h => congrArg some h.2⟩

theorem opensRightly {r : SessionRun μ} (hr : Remembers decoders memory r.controller r.history)
    (ha : r.controller.store.Assembled) (m : Message) : OpensRightly decoders r m := by
  have hstarted {c : Controller μ} := started_eq_some_iff hr (m := m) (c := c)
  have hwrites (hm : m.isImage = true) (hnot : ¬ m.Opens r.history) :
      (r.controller.take decoders m).next.store =
        ((r.controller.storeFor m.header.viewport).writeAll (m.writes decoders.codec)).1 := by
    have hstarts : ¬ r.controller.startsFrame m.header = true := fun h => hnot ((startsFrame_iff_opens hr hm).mp h)
    rw [Controller.store_take_image hm, Controller.store_beginMessage, if_neg hstarts]
  refine ⟨?_, fun c hc => ?_, fun c hc => ?_, hwrites, Controller.store_take_aside, fun hnot hv p c hc => ?_⟩
  · rw [Option.isSome_iff_exists]
    exact ⟨fun ⟨c, hc⟩ => (hstarted.mp hc).1, fun hopens => ⟨_, hstarted.mpr ⟨hopens, rfl⟩⟩⟩
  · obtain ⟨hopens, rfl⟩ := hstarted.mp hc
    have hstore : (r.controller.beginMessage m.header m.arrival).store =
        (r.controller.storeFor m.header.viewport).reset r.controller.resetMode := by
      rw [Controller.store_beginMessage, if_pos ((startsFrame_iff_opens hr hopens.1).mpr hopens)]
    refine ⟨hstore, ?_, ?_, ?_⟩
    · rw [hstore]
      exact FrameStore.uncovered_reset _ _
    · rw [Controller.session_beginMessage]
      rfl
    · rw [Controller.session_beginMessage]
      exact hr.describes.status
  · obtain ⟨hopens, rfl⟩ := hstarted.mp hc
    exact Controller.store_take_image hopens.1
  · cases hm : m.isImage with
    | false =>
      rw [Controller.store_take_aside hm]
      exact ⟨c, hc, .refl c _⟩
    | true =>
      rw [hwrites hm hnot, Controller.storeFor_of_eq (hv hm)]
      exact ha.keeps_writeAll _ hc

/-- Frames begin at the right messages. After every run of messages, refused ones among them, the next
message is reported as the start of a frame and resets the store if and only if it opens one, and what has
been received survives every other message in the same viewport. -/
theorem opensRightly_ofMessages (decoders : Decoders μ) (mode : ResetMode) (parallel : Bool) (window : Duration)
    (memory : μ) (messages : List Message) (m : Message) :
    OpensRightly decoders (ofMessages decoders (.new mode parallel window memory) messages) m :=
  opensRightly ((Remembers.new decoders mode parallel window memory).ofMessages messages)
    (assembled_ofMessages decoders mode parallel window memory messages) m

/-- After the start of frame 7 with the right pixel, a second start of it with the left pixel is no start, and
the right pixel stays. The start of frame 8 is one. -/
theorem opensRightly_ofMessages_startAgain :
    let r := ofMessages Decoders.firstByte (.new .full true ⟨1⟩ 0) [.start 7 [⟨"rgba", .beauty, ⟨#[1]⟩⟩]]
    let again := r.controller.take .firstByte (.start 7 [⟨"rgba", .beauty, ⟨#[0]⟩⟩])
    again.started.isSome = false ∧ (again.next.store.channel .beauty).mask.isSet 1 0 = true ∧
      (r.controller.take .firstByte (.start 8 [⟨"rgba", .beauty, ⟨#[0]⟩⟩])).started.isSome = true := by
  intro r again
  have hopens : ∀ m, OpensRightly .firstByte r m := opensRightly_ofMessages .firstByte .full true ⟨1⟩ 0 _
  have hid : r.history.syncId? = some 7 := by decide +kernel
  have hviewport : r.controller.store.viewport = ⟨0, 0, 1, 0⟩ := by decide +kernel
  have hright : (r.controller.store.channel .beauty).mask.isSet 1 0 = true := by decide +kernel
  clear_value r
  have hagain := hopens (.start 7 [⟨"rgba", .beauty, ⟨#[0]⟩⟩])
  have hnot : ¬ (Message.start 7 [⟨"rgba", .beauty, ⟨#[0]⟩⟩]).Opens r.history := fun h => h.2.2 hid
  refine ⟨?_, ?_, ?_⟩
  · rw [← Bool.not_eq_true, hagain.reported]
    exact hnot
  · obtain ⟨c, hc, hkeeps⟩ := hagain.kept hnot (fun _ => hviewport) (.channel .beauty) _ rfl
    have heq : again.next.store.channel .beauty = c := Aov.owned.inj (Option.some.inj hc)
    rw [heq]
    exact hkeeps.covered 1 0 hright
  · rw [(hopens (.start 8 [⟨"rgba", .beauty, ⟨#[0]⟩⟩])).reported]
    refine ⟨by decide, rfl, ?_⟩
    rw [hid]
    decide

end SessionRun

end ProgressiveFrame
