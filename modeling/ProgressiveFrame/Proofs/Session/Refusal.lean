import ProgressiveFrame.Proofs.Session.Run
import ProgressiveFrame.Proofs.Store.Refusal

/-!
# A message that is refused

An image message ends at the first buffer whose write the store refuses. What came before it has been written,
and what comes after it is not looked at.

* `NamedBuffer.Refusal`: where a row of buffers stops, with what comes before and after. A row has a refusal exactly
  if its writes do not all succeed (`nonempty_refusal_iff`), and otherwise all of it is taken (`fitting_eq_self`).
* `NamedBuffer.metadataAfter`: what the metadata decoder remembers once it has seen the metadata among some buffers.
* `Delivery.run_of_refusal`: the buffers of a row act up to its refusal.
* `Controller.take_keepsPrefix`: a message is refused exactly if its buffers have a refusal, and a refused message
  leaves what `Controller.KeepsPrefix` says.
-/

namespace ProgressiveFrame

/-- A refused write leaves nothing behind but, at most, an empty AOV under a name that is new. -/
theorem FrameStore.write_refused {s : FrameStore} {w : Write} {e : FrameError} (h : (s.write w).2 = .error e) :
    (s.write w).1 = s ∨ ∃ name numChan, w.place = .aov name ∧ s.aov? name = none ∧
      (s.write w).1 = s.withEmptyAov name numChan := by
  rw [write_refused_eq h]
  cases hopens : s.opens? w with
  | none => exact .inl rfl
  | some room =>
    obtain ⟨hplace, hnew⟩ := opens?_eq_some hopens
    exact .inr ⟨room.1, room.2, hplace, hnew, rfl⟩

/-! ## Rows of buffers -/

namespace NamedBuffer

/-- Where a row of buffers stops: the first buffer whose write the store refuses. -/
structure Refusal (codec : Codec) (s : FrameStore) (bs : List NamedBuffer) where
  before : List NamedBuffer
  buffer : NamedBuffer
  after : List NamedBuffer
  write : Write
  cause : FrameError
  split : bs = before ++ buffer :: after
  /-- Everything before it is written. -/
  fits : (s.writeAll (writes codec s.layout before)).2 = .ok ()
  asks : buffer.write? codec s.layout = some write
  refused : ((s.writeAll (writes codec s.layout before)).1.write write).2 = .error cause

/-- The store when the row stops. -/
def Refusal.stored {codec : Codec} {s : FrameStore} {bs : List NamedBuffer} (r : Refusal codec s bs) : FrameStore :=
  (s.writeAll (writes codec s.layout r.before)).1

/-- What the metadata decoder remembers once it has seen the metadata among some buffers. -/
def metadataAfter {μ : Type} (decoders : Decoders μ) (memory : μ) (bs : List NamedBuffer) : μ :=
  (bs.filter fun b => !b.isEmpty && b.isMetadata).foldl (fun memory b => decoders.decodeMetadata memory b.name b.bytes)
    memory

variable {codec : Codec} {layout : TileLayout} {s : FrameStore} {b : NamedBuffer} {bs : List NamedBuffer} {w : Write}

theorem writes_cons_of_none (h : b.write? codec layout = none) :
    writes codec layout (b :: bs) = writes codec layout bs :=
  List.filterMap_cons_none h

theorem writes_cons_of_some (h : b.write? codec layout = some w) :
    writes codec layout (b :: bs) = w :: writes codec layout bs := List.filterMap_cons_some h

/-- A row stops exactly if its writes do not all succeed. -/
theorem nonempty_refusal_iff :
    Nonempty (Refusal codec s bs) ↔ (s.writeAll (writes codec s.layout bs)).2 ≠ .ok () := by
  constructor
  · intro ⟨r⟩ hok
    have happend : writes codec s.layout bs =
        writes codec s.layout r.before ++ (r.write :: writes codec s.layout r.after) := by
      have hrow := congrArg (writes codec s.layout) r.split
      rw [hrow, writes, List.filterMap_append]
      exact congrArg _ (writes_cons_of_some r.asks)
    rw [happend, FrameStore.writeAll_append r.fits, FrameStore.writeAll_cons_of_error r.refused] at hok
    cases hok
  · intro hne
    induction bs generalizing s with
    | nil => exact absurd rfl hne
    | cons b bs ih =>
      cases hw : b.write? codec s.layout with
      | none =>
        rw [writes_cons_of_none hw] at hne
        obtain ⟨r⟩ := ih hne
        exact ⟨{ r with
          before := b :: r.before
          split := congrArg (b :: ·) r.split
          fits := by rw [writes_cons_of_none hw]; exact r.fits
          refused := by rw [writes_cons_of_none hw]; exact r.refused }⟩
      | some w =>
        rw [writes_cons_of_some hw] at hne
        cases hans : (s.write w).2 with
        | error e => exact ⟨⟨[], b, bs, w, e, rfl, rfl, hw, hans⟩⟩
        | ok =>
          rw [FrameStore.writeAll_cons_of_ok hans] at hne
          obtain ⟨r⟩ := ih (s := (s.write w).1) (by rwa [FrameStore.layout_write])
          obtain ⟨before, buffer, after, write, cause, split, fits, asks, refused⟩ := r
          rw [FrameStore.layout_write] at fits asks refused
          refine ⟨⟨b :: before, buffer, after, write, cause, congrArg (b :: ·) split, ?_, asks, ?_⟩⟩
          · rw [writes_cons_of_some hw, FrameStore.writeAll_cons_of_ok hans]
            exact fits
          · rw [writes_cons_of_some hw, FrameStore.writeAll_cons_of_ok hans]
            exact refused

/-- Of a row whose writes succeed, all buffers are taken. -/
theorem fitting_eq_self (h : (s.writeAll (writes codec s.layout bs)).2 = .ok ()) : fitting codec s bs = bs := by
  induction bs generalizing s with
  | nil => rfl
  | cons b bs ih =>
    cases hw : b.write? codec s.layout with
    | none =>
      rw [writes_cons_of_none hw] at h
      rw [fitting_cons_of_none hw, ih h]
    | some w =>
      rw [writes_cons_of_some hw] at h
      cases hans : (s.write w).2 with
      | error e =>
        rw [FrameStore.writeAll_cons_of_error hans] at h
        cases h
      | ok =>
        rw [FrameStore.writeAll_cons_of_ok hans] at h
        rw [fitting_cons_of_ok hw hans, ih (by rwa [FrameStore.layout_write])]

/-- A buffer that goes to an AOV goes to the one of its name. -/
theorem name_of_place? {name : String} (h : b.place? = some (.aov name)) : name = b.name := by
  simp only [place?] at h
  split at h
  · cases h
  · cases ht : b.dataType.target <;> rw [ht] at h <;> cases h <;> rfl

theorem metadataAfter_append {μ : Type} (decoders : Decoders μ) (memory : μ) (bs cs : List NamedBuffer) :
    metadataAfter decoders memory (bs ++ cs) = metadataAfter decoders (metadataAfter decoders memory bs) cs := by
  rw [metadataAfter, List.filter_append, List.foldl_append]
  rfl

/-- A buffer that asks for a write is no metadata. -/
theorem metadataAfter_of_write? {μ : Type} (decoders : Decoders μ) (memory : μ) (h : b.write? codec layout = some w) :
    metadataAfter decoders memory [b] = memory := by
  obtain ⟨-, hmeta⟩ := Bool.or_eq_false_iff.mp (isAside_of_write? h)
  simp [metadataAfter, hmeta]

end NamedBuffer

namespace Delivery

variable {μ : Type} {decoders : Decoders μ} {d : Delivery μ} {bs : List NamedBuffer}

/-- A buffer reaches the metadata decoder when it is metadata by its name. -/
theorem metadata_dispatch (decoders : Decoders μ) (d : Delivery μ) (b : NamedBuffer) :
    (d.dispatch decoders b).1.metadata = NamedBuffer.metadataAfter decoders d.metadata [b] := by
  cases hw : b.write? decoders.codec d.store.layout with
  | some w => rw [dispatch_of_write hw, NamedBuffer.metadataAfter_of_write? decoders d.metadata hw]
  | none =>
    cases hempty : b.isEmpty with
    | true => simp [dispatch, NamedBuffer.metadataAfter, hempty]
    | false =>
      cases hmeta : b.isMetadata with
      | true => simp [dispatch, NamedBuffer.metadataAfter, hempty, hmeta]
      | false =>
        have haside : b.isAside = false := by rw [NamedBuffer.isAside, hempty, hmeta]; rfl
        have hnone : NamedBuffer.metadataAfter decoders d.metadata [b] = d.metadata := by
          simp [NamedBuffer.metadataAfter, hmeta]
        rw [NamedBuffer.write?, haside] at hw
        rw [dispatch, hempty, hmeta, hnone]
        cases ht : b.dataType.target with
        | channel kind => rw [ht] at hw; simp [Option.map_eq_none_iff.mp hw, skip]
        | aov => rw [ht] at hw; simp [Option.map_eq_none_iff.mp hw, skip]
        | reference => rw [ht] at hw; simp [Option.map_eq_none_iff.mp hw, skip]
        | nowhere => simp [skip]

/-- The metadata among the buffers of a row that are taken reaches the metadata decoder. -/
theorem metadata_run (decoders : Decoders μ) (d : Delivery μ) (bs : List NamedBuffer) : (run decoders d bs).1.metadata =
    NamedBuffer.metadataAfter decoders d.metadata (NamedBuffer.fitting decoders.codec d.store bs) := by
  induction bs generalizing d with
  | nil => rfl
  | cons b bs ih =>
    have hcons (taken : List NamedBuffer) :
        NamedBuffer.metadataAfter decoders (d.dispatch decoders b).1.metadata taken =
          NamedBuffer.metadataAfter decoders d.metadata (b :: taken) := by
      rw [metadata_dispatch, ← NamedBuffer.metadataAfter_append]
      rfl
    cases hw : b.write? decoders.codec d.store.layout with
    | none =>
      obtain ⟨hok, hstore, -⟩ := dispatch_of_none hw
      rw [run_cons_of_ok hok, ih, hstore, hcons, NamedBuffer.fitting_cons_of_none hw]
    | some w =>
      have hdispatch := dispatch_of_write hw
      cases hans : (d.store.write w).2 with
      | ok =>
        have hok : (d.dispatch decoders b).2 = .ok () := by rw [hdispatch, hans]; rfl
        rw [run_cons_of_ok hok, ih, hcons, NamedBuffer.fitting_cons_of_ok hw hans, hdispatch]
      | error e =>
        have herror : (d.dispatch decoders b).2 = .error ⟨b.name, e⟩ := by rw [hdispatch, hans]; rfl
        rw [run_cons_of_error herror, NamedBuffer.fitting_cons_of_error hw hans, hdispatch]
        rfl

/-- The buffers of a row act up to its refusal, and no further. -/
theorem run_of_refusal (r : NamedBuffer.Refusal decoders.codec d.store bs) :
    (run decoders d bs).2 = .error ⟨r.buffer.name, r.cause⟩ ∧
      (run decoders d bs).1.metadata = NamedBuffer.metadataAfter decoders d.metadata r.before ∧
      (run decoders d bs).1.store = (r.stored.write r.write).1 := by
  obtain ⟨hstore, hok, -⟩ := run_spec decoders d r.before
  have hmetadata := metadata_run decoders d r.before
  rw [NamedBuffer.fitting_eq_self r.fits] at hmetadata
  have hbefore : run decoders d bs = run decoders (run decoders d r.before).1 (r.buffer :: r.after) := by
    conv => lhs; rw [r.split, run_append]
    have hprefix := hok.mpr r.fits
    generalize run decoders d r.before = before at hprefix
    obtain ⟨d', _⟩ := before
    cases hprefix
    rfl
  have hasks : r.buffer.write? decoders.codec (run decoders d r.before).1.store.layout = some r.write := by
    rw [hstore, FrameStore.layout_writeAll]
    exact r.asks
  have hdispatch := dispatch_of_write hasks
  have herror : ((run decoders d r.before).1.dispatch decoders r.buffer).2 = .error ⟨r.buffer.name, r.cause⟩ := by
    rw [hdispatch, hstore, r.refused]
    rfl
  rw [hbefore, run_cons_of_error herror, hdispatch]
  exact ⟨rfl, hmetadata, by rw [hstore, NamedBuffer.Refusal.stored]⟩

end Delivery

/-! ## Messages -/

/-- The sessions say the same of the picture. -/
structure SessionState.SamePicture (s t : SessionState) : Prop where
  viewId : s.viewId = t.viewId
  status : s.status = t.status
  progress : s.progress = t.progress
  coarsePass : s.coarsePass = t.coarsePass
  roi : s.roi = t.roi
  machineId : s.machineId = t.machineId
  messageSize : s.messageSize = t.messageSize
  snapshotMicros : s.snapshotMicros = t.snapshotMicros
  latency : s.latency = t.latency
  skipped : s.skipped = t.skipped
  rate : s.rate = t.rate

namespace Controller

variable {μ : Type} {decoders : Decoders μ} {c : Controller μ} {m : Message}

/-- What a refused message leaves behind. -/
structure KeepsPrefix (decoders : Decoders μ) (c : Controller μ) (m : Message)
    (r : NamedBuffer.Refusal decoders.codec (c.storeBefore m.header) m.buffers) (c' : Controller μ) : Prop where
  /-- The buffers before the refused one are in the store, and all that can be left of that one is an empty AOV. -/
  store : c'.store = r.stored ∨
    r.stored.aov? r.buffer.name = none ∧ ∃ numChan, c'.store = r.stored.withEmptyAov r.buffer.name numChan
  /-- The metadata before the refused buffer has been decoded. -/
  metadata : c'.metadata = NamedBuffer.metadataAfter decoders c.metadata r.before
  /-- The frame is the one that the message names. -/
  syncId : c'.session.syncId = some m.header.syncId
  albedoInput : c'.session.albedoInput =
    if m.header.status = .started then m.header.albedoInput else c.session.albedoInput
  normalInput : c'.session.normalInput =
    if m.header.status = .started then m.header.normalInput else c.session.normalInput
  /-- What describes the picture is still that of an earlier message. -/
  picture : c'.session.SamePicture c.session
  activity : c'.activity = c.activity

/-- A message whose buffers have a refusal is refused there. -/
theorem take_of_refusal (hi : m.isImage = true)
    (r : NamedBuffer.Refusal decoders.codec (c.storeBefore m.header) m.buffers) :
    c.take decoders m = ⟨{ c with
      store := (r.stored.write r.write).1
      metadata := NamedBuffer.metadataAfter decoders c.metadata r.before
      session := c.session.noteFrame m.header m.arrival }, c.startFor m.header m.arrival,
      .error ⟨r.buffer.name, r.cause⟩⟩ := by
  obtain ⟨hresult, hmetadata, hstore⟩ := Delivery.run_of_refusal (d := ⟨c.storeBefore m.header, c.metadata, []⟩) r
  rw [take_of_image hi, delivery, hresult, hmetadata, hstore]

/-- A message ends at the first buffer that the store refuses, and keeps exactly what came before. It succeeds if and
only if there is no such buffer. Otherwise the answer names that buffer and the cause, the buffers before it are in
the store, no buffer after it is looked at, and the session goes on to describe the picture of an earlier message. -/
theorem take_keepsPrefix (decoders : Decoders μ) (c : Controller μ) (m : Message) (hi : m.isImage = true) :
    ((c.take decoders m).result = .ok () ↔
      ¬ Nonempty (NamedBuffer.Refusal decoders.codec (c.storeBefore m.header) m.buffers)) ∧
    ∀ r : NamedBuffer.Refusal decoders.codec (c.storeBefore m.header) m.buffers,
      (c.take decoders m).result = .error ⟨r.buffer.name, r.cause⟩ ∧
        c.KeepsPrefix decoders m r (c.take decoders m).next := by
  refine ⟨?_, fun r => ?_⟩
  · have hrow := (Delivery.run_spec decoders ⟨c.storeBefore m.header, c.metadata, []⟩ m.buffers).2.1
    rw [take_of_image hi, NamedBuffer.nonempty_refusal_iff, ne_eq, Decidable.not_not]
    exact hrow
  · rw [take_of_refusal hi r]
    refine ⟨rfl, ?_, rfl, rfl, rfl, rfl, ⟨rfl, rfl, rfl, rfl, rfl, rfl, rfl, rfl, rfl, rfl, rfl⟩, rfl⟩
    rcases FrameStore.write_refused r.refused with hkept | ⟨name, numChan, hplace, hnew, hadded⟩
    · exact .inl hkept
    · -- The write is that of the buffer, so the name is, too.
      have hname : name = r.buffer.name := by
        have hgoes := NamedBuffer.place?_eq_of_write? r.asks
        rw [hplace] at hgoes
        exact NamedBuffer.name_of_place? hgoes
      subst hname
      exact .inr ⟨hnew, numChan, hadded⟩

/-- The third buffer is for an alias. The pixel and the alias before it stay, and neither the metadata nor the pixel
after it arrives. -/
theorem take_keepsPrefix_alias :
    let bs : List NamedBuffer := [⟨"rgba", .beauty, ⟨#[0]⟩⟩, ⟨"depth", .aovReference, ⟨#[0]⟩⟩,
      ⟨"depth", .aovGeneric, ⟨#[0]⟩⟩, ⟨"auxInfo", .aovGeneric, ⟨#[9]⟩⟩, ⟨"rgba", .beauty, ⟨#[1]⟩⟩]
    let c := Controller.new .full false ⟨1⟩ 0
    let next := (c.take .firstByte (.start 7 bs)).next
    (∃ r : NamedBuffer.Refusal Decoders.firstByte.codec (c.storeBefore (Message.start 7 bs).header) bs,
      r.buffer.name = "depth" ∧ c.KeepsPrefix .firstByte (.start 7 bs) r next) ∧
      next.metadata = 0 ∧ (next.store.mask .beauty).isSet 0 0 = true ∧ (next.store.mask .beauty).isSet 1 0 = false := by
  intro bs c next
  obtain ⟨hok, hrefused⟩ := take_keepsPrefix .firstByte c (.start 7 bs) (by decide)
  have herror : (c.take .firstByte (.start 7 bs)).result = .error ⟨"depth", .referenceAov "depth"⟩ := by decide +kernel
  obtain ⟨r⟩ := Classical.not_not.mp fun hnone => nomatch herror.symm.trans (hok.mpr hnone)
  obtain ⟨hanswer, hkeeps⟩ := hrefused r
  refine ⟨⟨r, ?_, hkeeps⟩, by decide +kernel, by decide +kernel, by decide +kernel⟩
  have hsame := hanswer.symm.trans herror
  simp only [Except.error.injEq, IngestError.mk.injEq] at hsame
  exact hsame.1

end Controller

end ProgressiveFrame
