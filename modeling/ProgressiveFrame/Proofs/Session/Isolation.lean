import ProgressiveFrame.Proofs.Session.Readouts
import ProgressiveFrame.Proofs.Store.Agreement

/-!
# A new frame forgets the past

Two sessions may have had any pasts. Once both have taken the same start of a frame that is new to both, they cannot
be told apart by messages and readouts that concern the well-known channels alone.

* `SessionEvent`, `Controller.afterAll`: what can happen to a session, and the session after it. Its store keeps its
  shape (`Controller.formed_afterAll`).
* `Controller.Agrees`: two sessions that will answer alike. Messages and readouts keep this (`Agrees.after`), and
  from the start of a new frame on it holds (`agrees_storeBefore`, `agrees_take`).
* `past_forgotten`: so what the two sessions show afterwards is the same (`Controller.ShowsAlike`), but for the values
  of channels that the reset keeps.
-/

namespace ProgressiveFrame

/-- The message carries an image whose buffers all go to well-known channels. -/
structure Message.OfChannels (m : Message) : Prop where
  isImage : m.isImage = true
  channel : ∀ b ∈ m.buffers, ∃ kind, b.dataType.target = .channel kind

/-- What can happen to a session. -/
inductive SessionEvent where
  | message (m : Message)
  | readout (source : ReadoutSource) (o : Orientation) (roi : Option Viewport)
  | setResetMode (mode : ResetMode)

/-- The event concerns the well-known channels alone. -/
inductive SessionEvent.OfChannels : SessionEvent → Prop where
  | message {m : Message} (hm : m.OfChannels) : OfChannels (.message m)
  | readout (kind : WellKnown) (o : Orientation) (roi : Option Viewport) : OfChannels (.readout (.channel kind) o roi)

/-- A buffer for a well-known channel asks for nothing but an update of it. -/
theorem NamedBuffer.update_of_write? {codec : Codec} {layout : TileLayout} {b : NamedBuffer} {w : Write}
    {kind : WellKnown} (ht : b.dataType.target = .channel kind) (hw : b.write? codec layout = some w) :
    ∃ u, w = .update kind u := by
  rw [write?, isAside_of_write? hw, ht] at hw
  obtain ⟨u, -, rfl⟩ := Option.map_eq_some_iff.mp hw
  exact ⟨u, rfl⟩

variable {μ ν : Type} {decoders : Decoders μ} {decoders' : Decoders ν} {watched : WellKnown → Bool}

/-- Buffers for well-known channels are answered alike by stores that agree, and keep them in agreement. -/
theorem Delivery.run_agrees {d : Delivery μ} {d' : Delivery ν} (hcodec : decoders'.codec = decoders.codec)
    (hd : d.store.Agrees watched d'.store) {bs : List NamedBuffer}
    (hbs : ∀ b ∈ bs, ∃ kind, b.dataType.target = .channel kind) :
    (run decoders' d' bs).2 = (run decoders d bs).2 ∧
      (run decoders d bs).1.store.Agrees watched (run decoders' d' bs).1.store := by
  induction bs generalizing d d' with
  | nil => exact ⟨rfl, hd⟩
  | cons b bs ih =>
    obtain ⟨⟨kind, hkind⟩, hrest⟩ := List.forall_mem_cons.mp hbs
    have hsame : b.write? decoders'.codec d'.store.layout = b.write? decoders.codec d.store.layout := by
      rw [hcodec, hd.layout]
    cases hw : b.write? decoders.codec d.store.layout with
    | none =>
      obtain ⟨hok, hstore, -⟩ := dispatch_of_none hw
      obtain ⟨hok', hstore', -⟩ := dispatch_of_none (hsame.trans hw)
      rw [run_cons_of_ok hok, run_cons_of_ok hok']
      exact ih (by rw [hstore, hstore']; exact hd) hrest
    | some w =>
      obtain ⟨u, rfl⟩ := NamedBuffer.update_of_write? hkind hw
      obtain ⟨hanswer, hagrees⟩ := hd.update kind u
      have hdispatch := dispatch_of_write hw
      have hdispatch' := dispatch_of_write (hsame.trans hw)
      rw [hanswer] at hdispatch'
      cases hans : (d.store.write (.update kind u)).2 with
      | ok =>
        rw [hans] at hdispatch hdispatch'
        have hok : (d.dispatch decoders b).2 = .ok () := by rw [hdispatch]; rfl
        have hok' : (d'.dispatch decoders' b).2 = .ok () := by rw [hdispatch']; rfl
        rw [run_cons_of_ok hok, run_cons_of_ok hok']
        exact ih (by rw [hdispatch, hdispatch']; exact hagrees) hrest
      | error e =>
        rw [hans] at hdispatch hdispatch'
        have herr : (d.dispatch decoders b).2 = .error ⟨b.name, e⟩ := by rw [hdispatch]; rfl
        have herr' : (d'.dispatch decoders' b).2 = .error ⟨b.name, e⟩ := by rw [hdispatch']; rfl
        rw [run_cons_of_error herr, run_cons_of_error herr', hdispatch, hdispatch']
        exact ⟨rfl, hagrees⟩

namespace Controller

variable {c : Controller μ} {c' : Controller ν}

/-! ## Events -/

/-- The session after an event. -/
def after (decoders : Decoders μ) (c : Controller μ) : SessionEvent → Controller μ
  | .message m => (c.take decoders m).next
  | .readout source o roi => (c.readout source o roi).1
  | .setResetMode mode => { c with resetMode := mode }

/-- The session after a run of events. -/
def afterAll (decoders : Decoders μ) (c : Controller μ) (events : List SessionEvent) : Controller μ :=
  events.foldl (after decoders) c

theorem formed_after (hf : c.store.Formed) (e : SessionEvent) : (c.after decoders e).store.Formed := by
  cases e with
  | message m => exact formed_take hf m
  | readout source o roi => exact formed_readout hf source o roi
  | setResetMode mode => exact hf

theorem formed_afterAll (hf : c.store.Formed) (events : List SessionEvent) :
    (c.afterAll decoders events).store.Formed := by
  induction events generalizing c with
  | nil => exact hf
  | cons e events ih => exact ih (formed_after hf e)

/-! ## Agreement -/

/-- The sessions have one frame in one state: they agree in their stores and in all that decides what becomes of the
next message and of the next readout. -/
structure Agrees (watched : WellKnown → Bool) (c : Controller μ) (c' : Controller ν) : Prop where
  resetMode : c'.resetMode = c.resetMode
  store : c.store.Agrees watched c'.store
  syncId : c'.session.syncId = c.session.syncId
  coarsePass : c'.session.coarsePass = c.session.coarsePass
  roi : c'.session.roi = c.session.roi

/-- An image message finds stores that agree, unless a session finds a frame in it that the other one does not. -/
theorem Agrees.storeBefore (h : c.Agrees watched c') (header : FrameHeader) :
    (c.storeBefore header).Agrees watched (c'.storeBefore header) := by
  have hstarts : c'.startsFrame header = c.startsFrame header := by
    rw [startsFrame, startsFrame, SessionState.changesFrame, SessionState.changesFrame, h.syncId]
  have hfor : (c.storeFor header.viewport).Agrees watched (c'.storeFor header.viewport) := by
    unfold storeFor
    rw [h.store.viewport]
    split
    · exact h.store
    · exact ⟨rfl, fun kind => ⟨rfl, rfl, fun _ => rfl⟩⟩
  unfold Controller.storeBefore
  rw [hstarts, h.resetMode]
  split
  · exact hfor.reset c.resetMode
  · exact hfor

/-- A message that finds stores in agreement is answered alike, and leaves the sessions in agreement: by what it says
of the picture when it succeeds, and otherwise if they were so before. -/
theorem agrees_take (hcodec : decoders'.codec = decoders.codec) {m : Message} (hm : m.OfChannels)
    (hmode : c'.resetMode = c.resetMode)
    (hstore : (c.storeBefore m.header).Agrees watched (c'.storeBefore m.header))
    (hsession : (c.take decoders m).result = .ok () ∨
      c'.session.coarsePass = c.session.coarsePass ∧ c'.session.roi = c.session.roi) :
    (c'.take decoders' m).result = (c.take decoders m).result ∧
      (c.take decoders m).next.Agrees watched (c'.take decoders' m).next := by
  have hbegin : (Delivery.mk (c.storeBefore m.header) c.metadata []).store.Agrees watched
      (Delivery.mk (c'.storeBefore m.header) c'.metadata []).store := hstore
  obtain ⟨hresult, hdelivered⟩ := Delivery.run_agrees hcodec hbegin hm.channel
  change (c'.delivery decoders' m).2 = (c.delivery decoders m).2 at hresult
  change (c.delivery decoders m).1.store.Agrees watched (c'.delivery decoders' m).1.store at hdelivered
  rw [take_of_image hm.isImage] at hsession ⊢
  rw [take_of_image hm.isImage, hresult]
  refine ⟨rfl, ?_⟩
  cases hans : (c.delivery decoders m).2 with
  | ok => exact ⟨hmode, hdelivered, rfl, rfl, rfl⟩
  | error e =>
    obtain ⟨hcoarse, hroi⟩ := hsession.resolve_left fun hok => nomatch hans.symm.trans hok
    exact ⟨hmode, hdelivered, rfl, hcoarse, hroi⟩

/-- Readouts of well-known channels keep sessions in agreement. -/
theorem Agrees.readout (h : c.Agrees watched c') (kind : WellKnown) (o : Orientation) (roi : Option Viewport) :
    (c.readout (.channel kind) o roi).1.Agrees watched (c'.readout (.channel kind) o roi).1 ∧
      (watched kind = true → (c'.readout (.channel kind) o roi).2 = (c.readout (.channel kind) o roi).2) := by
  have hread := h.store.readout kind o (roi <|> c.session.roi) c.session.coarsePass.needsExtrapolation
  unfold Controller.readout
  rw [h.roi, h.coarsePass]
  exact ⟨⟨h.resetMode, hread.1, h.syncId, h.coarsePass, h.roi⟩, hread.2⟩

theorem Agrees.after (h : c.Agrees watched c') (hcodec : decoders'.codec = decoders.codec) {e : SessionEvent}
    (he : e.OfChannels) : (c.after decoders e).Agrees watched (c'.after decoders' e) := by
  cases he with
  | message hm => exact (agrees_take hcodec hm h.resetMode (h.storeBefore _) (.inr ⟨h.coarsePass, h.roi⟩)).2
  | readout kind o roi => exact (h.readout kind o roi).1

theorem Agrees.afterAll (h : c.Agrees watched c') (hcodec : decoders'.codec = decoders.codec)
    {events : List SessionEvent} (he : ∀ e ∈ events, e.OfChannels) :
    (c.afterAll decoders events).Agrees watched (c'.afterAll decoders' events) := by
  induction events generalizing c c' with
  | nil => exact h
  | cons e events ih =>
    obtain ⟨hfirst, hrest⟩ := List.forall_mem_cons.mp he
    exact ih (h.after hcodec hfirst) hrest

/-- The start of a frame that is new to both sessions finds stores that have just been reset. -/
theorem agrees_storeBefore (hf : c.store.Formed) (hf' : c'.store.Formed) (hmode : c'.resetMode = c.resetMode)
    {header : FrameHeader} (hs : c.startsFrame header = true) (hs' : c'.startsFrame header = true) :
    (c.storeBefore header).Agrees (fun kind => !(Place.channel kind).keepsValues c.resetMode)
      (c'.storeBefore header) := by
  have hfor : (c.storeFor header.viewport).Formed := by
    unfold storeFor
    split
    · exact hf
    · exact FrameStore.formed_empty _
  have hfor' : (c'.storeFor header.viewport).Formed := by
    unfold storeFor
    split
    · exact hf'
    · exact FrameStore.formed_empty _
  rw [storeBefore, storeBefore, if_pos hs, if_pos hs', hmode]
  refine FrameStore.agrees_reset hfor.alike.sized hfor'.alike.sized (fun kind => ?_) ?_ c.resetMode
  · rw [hfor.numChan, hfor'.numChan]
  · rw [viewport_storeFor, viewport_storeFor]

/-! ## What is shown -/

/-- The sessions show the same of the well-known channels, and will answer the next message alike. The channels are
the same but for their encodings; of those that keep their values over a reset in this mode, this is only said of
coverage and ray counts. -/
structure ShowsAlike (decoders : Decoders μ) (decoders' : Decoders ν) (mode : ResetMode) (c : Controller μ)
    (c' : Controller ν) : Prop where
  mask : ∀ kind, (c'.store.channel kind).mask = (c.store.channel kind).mask
  sampleCounts : ∀ kind, (c'.store.channel kind).sampleCounts = (c.store.channel kind).sampleCounts
  channel : ∀ kind, (Place.channel kind).keepsValues mode = false →
    c'.store.channel kind = { c.store.channel kind with precision := (c'.store.channel kind).precision }
  readout : ∀ kind, (Place.channel kind).keepsValues mode = false → ∀ o roi,
    (c'.readout (.channel kind) o roi).2 = (c.readout (.channel kind) o roi).2
  result : ∀ m : Message, m.OfChannels → (c'.take decoders' m).result = (c.take decoders m).result

theorem Agrees.showsAlike {mode : ResetMode} (h : c.Agrees (fun kind => !(Place.channel kind).keepsValues mode) c')
    (hcodec : decoders'.codec = decoders.codec) : c.ShowsAlike decoders decoders' mode c' where
  mask kind := (h.store.channel kind).mask_eq
  sampleCounts kind := (h.store.channel kind).sampleCounts_eq
  channel kind hkind := by
    have hchannel := h.store.channel kind
    rw [hkind] at hchannel
    exact hchannel.eq_with_precision
  readout kind hkind o roi := (h.readout kind o roi).2 (by rw [hkind]; rfl)
  result _ hm := (agrees_take hcodec hm h.resetMode (h.storeBefore _) (.inr ⟨h.coarsePass, h.roi⟩)).1

/-- A new frame forgets the past. Take two sessions with one decoder of images and any pasts, and let both take the
start of a frame that neither of them had last. If it succeeds in one of them it succeeds in the other, and whatever
happens to the well-known channels from then on, the two sessions show the same. Only the values of channels that the
reset keeps can tell them apart. -/
theorem past_forgotten (decoders : Decoders μ) (decoders' : Decoders ν) (hcodec : decoders'.codec = decoders.codec)
    (firstMode firstMode' : ResetMode) (parallel parallel' : Bool) (window window' : Duration) (memory : μ)
    (memory' : ν) (past past' : List SessionEvent) (m : Message) (events : List SessionEvent) :
    let c := (new firstMode parallel window memory).afterAll decoders past
    let c' := (new firstMode' parallel' window' memory').afterAll decoders' past'
    c'.resetMode = c.resetMode → m.OfChannels → m.header.status = .started →
      c.session.syncId ≠ some m.header.syncId → c'.session.syncId ≠ some m.header.syncId →
      (c.take decoders m).result = .ok () → (∀ e ∈ events, e.OfChannels) →
      (c'.take decoders' m).result = .ok () ∧
        ((c.take decoders m).next.afterAll decoders events).ShowsAlike decoders decoders' c.resetMode
          ((c'.take decoders' m).next.afterAll decoders' events) := by
  intro c c' hmode hm hstatus hnew hnew' hok hevents
  have hf : c.store.Formed := formed_afterAll (FrameStore.formed_empty .origin) past
  have hf' : c'.store.Formed := formed_afterAll (FrameStore.formed_empty .origin) past'
  have hstore := agrees_storeBefore hf hf' hmode (startsFrame_iff.mpr ⟨hstatus, hnew⟩)
    (startsFrame_iff.mpr ⟨hstatus, hnew'⟩)
  obtain ⟨hresult, hagrees⟩ := agrees_take hcodec hm hmode hstore (.inl hok)
  exact ⟨hresult.trans hok, (hagrees.afterAll hcodec hevents).showsAlike hcodec⟩

/-- One session is new, and the other has shown the right pixel of frame 3. After the left pixel of frame 7, a readout
and the weight of its right pixel they show the same in either mode, but for the colour of the right pixel, which the
second session keeps where it is told to. -/
theorem past_forgotten_secondFrame :
    let left : List NamedBuffer := [⟨"rgba", .beauty, ⟨#[0]⟩⟩, ⟨"weight", .weight, ⟨#[0]⟩⟩]
    let right : List NamedBuffer := [⟨"rgba", .beauty, ⟨#[1]⟩⟩, ⟨"weight", .weight, ⟨#[1]⟩⟩]
    let shown : SessionEvent := .readout (.channel .weight) .topDown none
    let events := [shown, .message (.start 7 [⟨"weight", .weight, ⟨#[1]⟩⟩])]
    let c (mode : ResetMode) := Controller.new mode false ⟨1⟩ 0
    let c' (mode : ResetMode) := (Controller.new mode true ⟨2⟩ 5).afterAll .firstByte [.message (.start 3 right), shown]
    let next (c : Controller Nat) := (c.take .firstByte (.start 7 left)).next.afterAll .firstByte events
    ((c' .full).store.mask .beauty).isSet 1 0 = true ∧
      (next (c .full)).ShowsAlike .firstByte .firstByte .full (next (c' .full)) ∧
      (next (c .preserveColor)).ShowsAlike .firstByte .firstByte .preserveColor (next (c' .preserveColor)) ∧
      (next (c' .preserveColor)).store.pixel? .beauty 1 0 = some (.replicate 4 .one) ∧
      (next (c .preserveColor)).store.pixel? .beauty 1 0 = some (.replicate 4 .zero) := by
  intro left right shown events c c' next
  have hleft : (Message.start 7 left).OfChannels := ⟨by decide, by simp [Message.start, left, DataType.target]⟩
  have hevents : ∀ e ∈ events, e.OfChannels := by
    intro e he
    simp only [events, List.mem_cons, List.not_mem_nil, or_false] at he
    rcases he with rfl | rfl
    · exact .readout _ _ _
    · exact .message ⟨by decide, by simp [Message.start, DataType.target]⟩
  refine ⟨by decide +kernel, ?_, ?_, by decide +kernel, by decide +kernel⟩
  · exact (past_forgotten .firstByte .firstByte rfl .full .full false true ⟨1⟩ ⟨2⟩ 0 5 []
      [.message (.start 3 right), shown] (.start 7 left) events (by decide +kernel) hleft rfl (by decide +kernel)
      (by decide +kernel) (by decide +kernel) hevents).2
  · exact (past_forgotten .firstByte .firstByte rfl .preserveColor .preserveColor false true ⟨1⟩ ⟨2⟩ 0 5 []
      [.message (.start 3 right), shown] (.start 7 left) events (by decide +kernel) hleft rfl (by decide +kernel)
      (by decide +kernel) (by decide +kernel) hevents).2

end Controller

end ProgressiveFrame
