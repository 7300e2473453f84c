import ProgressiveFrame.Proofs.Session.Run

/-!
# Buffers that are left out

Some buffers of an image message do nothing to the store. A buffer without payload and one that is metadata by its
name are no part of the image; one that is declared as nothing known and one that the decoder rejects should have been
and are left out.

* `NamedBuffer.isIdle`: the buffers that do nothing, told from name, declared type and decoder. They are the ones that
  ask for no write (`write?_eq_none_iff`).
* `Delivery.run_withoutIdle`: buffers are answered as they are without the idle ones among them, and leave the same
  store. So what the metadata decoder remembers has no part in what they do (`run_congr`).
* `Controller.take_withoutIdle`: so a message does what it does without its idle buffers, but for the size of the
  message and the names of the buffers that have been left out. These are known beforehand.
-/

namespace ProgressiveFrame

namespace NamedBuffer

/-- Whether the decoder cannot read the buffer as what it is declared to be. -/
def isRejected (codec : Codec) (layout : TileLayout) (b : NamedBuffer) : Bool :=
  match b.dataType with
  | .unrecognized => false
  | .aovReference => (codec.decodeReference b.bytes).isNone
  | dataType => (codec.decode dataType b.bytes layout).isNone

/-- Whether the buffer cannot be made a part of the image. -/
def isUnusable (codec : Codec) (layout : TileLayout) (b : NamedBuffer) : Bool :=
  b.dataType == .unrecognized || b.isRejected codec layout

/-- Whether the buffer does nothing to the image. -/
def isIdle (codec : Codec) (layout : TileLayout) (b : NamedBuffer) : Bool :=
  b.isEmpty || b.isMetadata || b.isUnusable codec layout

variable {codec : Codec} {layout : TileLayout} {b : NamedBuffer}

/-- What cannot be made a part of the image asks for no write, unless it is no part of the image to begin with. -/
theorem isNone_write?_of_isAside_eq_false (haside : b.isAside = false) :
    (b.write? codec layout).isNone = b.isUnusable codec layout := by
  rw [write?, haside, isUnusable, isRejected]
  cases b.dataType <;> simp [DataType.target]

theorem write?_eq_none_iff : b.write? codec layout = none ↔ b.isIdle codec layout = true := by
  rw [← Option.isNone_iff_eq_none, isIdle, ← isAside]
  cases haside : b.isAside with
  | true => simp [write?, haside]
  | false => rw [isNone_write?_of_isAside_eq_false haside, Bool.false_or]

/-- A buffer is left out when it is a part of the image by payload and name, and cannot be made one. -/
theorem isSkipped_eq (codec : Codec) (layout : TileLayout) (b : NamedBuffer) :
    b.isSkipped codec layout = (!b.isEmpty && !b.isMetadata && b.isUnusable codec layout) := by
  rw [isSkipped, ← Bool.not_or, ← isAside]
  cases haside : b.isAside with
  | true => rfl
  | false => rw [isNone_write?_of_isAside_eq_false haside]

/-- The buffers that do something. -/
def withoutIdle (codec : Codec) (layout : TileLayout) (bs : List NamedBuffer) : List NamedBuffer :=
  bs.filter (!·.isIdle codec layout)

end NamedBuffer

/-- The message without the buffers that do nothing. -/
def Message.withoutIdle (codec : Codec) (m : Message) : Message :=
  { m with buffers := NamedBuffer.withoutIdle codec m.header.layout m.buffers }

variable {μ : Type} {decoders : Decoders μ}

/-- Idle buffers change neither the answer nor the store. -/
theorem Delivery.run_withoutIdle (decoders : Decoders μ) (d d' : Delivery μ) (hstore : d'.store = d.store)
    (bs : List NamedBuffer) :
    (run decoders d' (NamedBuffer.withoutIdle decoders.codec d.store.layout bs)).2 = (run decoders d bs).2 ∧
      (run decoders d' (NamedBuffer.withoutIdle decoders.codec d.store.layout bs)).1.store =
        (run decoders d bs).1.store := by
  induction bs generalizing d d' with
  | nil => exact ⟨rfl, hstore⟩
  | cons b bs ih =>
    cases hw : b.write? decoders.codec d.store.layout with
    | none =>
      obtain ⟨hok, hkept, -⟩ := dispatch_of_none hw
      have hidle := NamedBuffer.write?_eq_none_iff.mp hw
      rw [NamedBuffer.withoutIdle, List.filter_cons_of_neg (by simp [hidle]), run_cons_of_ok hok]
      have hrest := ih (d.dispatch decoders b).1 d' (hstore.trans hkept.symm)
      rw [hkept] at hrest
      exact hrest
    | some w =>
      have hidle : b.isIdle decoders.codec d.store.layout = false := by
        rw [← Bool.not_eq_true, ← NamedBuffer.write?_eq_none_iff, hw]
        nofun
      have hdispatch := dispatch_of_write hw
      have hw' : b.write? decoders.codec d'.store.layout = some w := by rw [hstore, hw]
      have hdispatch' := dispatch_of_write hw'
      rw [hstore] at hdispatch'
      rw [NamedBuffer.withoutIdle, List.filter_cons_of_pos (by simp [hidle])]
      cases hans : (d.store.write w).2 with
      | ok =>
        rw [hans] at hdispatch hdispatch'
        rw [run_cons_of_ok (congrArg Prod.snd hdispatch), run_cons_of_ok (congrArg Prod.snd hdispatch')]
        have hrest := ih (d.dispatch decoders b).1 (d'.dispatch decoders b).1 (by rw [hdispatch, hdispatch'])
        rw [hdispatch, FrameStore.layout_write] at hrest
        rw [hdispatch]
        exact hrest
      | error e =>
        rw [hans] at hdispatch hdispatch'
        rw [run_cons_of_error (congrArg Prod.snd hdispatch), run_cons_of_error (congrArg Prod.snd hdispatch'),
          hdispatch, hdispatch']
        exact ⟨rfl, rfl⟩

/-- What the metadata decoder remembers has no part in what buffers do. -/
theorem Delivery.run_congr (d d' : Delivery μ) (hstore : d'.store = d.store) (hskipped : d'.skipped = d.skipped)
    (bs : List NamedBuffer) :
    (run decoders d' bs).2 = (run decoders d bs).2 ∧
      (run decoders d' bs).1.store = (run decoders d bs).1.store ∧
      ((run decoders d bs).2 = .ok () → (run decoders d' bs).1.skipped = (run decoders d bs).1.skipped) := by
  -- Both rows are as the one without its idle buffers.
  have hrow := run_withoutIdle decoders d d rfl bs
  have hrow' := run_withoutIdle decoders d' d hstore.symm bs
  rw [hstore] at hrow'
  have hresult := hrow'.1.symm.trans hrow.1
  refine ⟨hresult, hrow'.2.symm.trans hrow.2, fun hok => ?_⟩
  rw [(run_spec decoders d bs).2.2 hok, (run_spec decoders d' bs).2.2 (hresult.trans hok), hstore, hskipped]

/-! ## Messages -/

/-- The second step answers and reports as the first one, and leaves the same but for the size of the message, the
names of the buffers that were left out, and what the metadata decoder remembers. -/
structure IngestStep.SameButSkipped (step step' : IngestStep μ) : Prop where
  result : step'.result = step.result
  /-- The start of a frame is reported in both or in neither, and finds the same controller. -/
  started : step'.started = step.started
  /-- The AOVs are the same in the same order. -/
  store : step'.next.store = step.next.store
  session : step'.next.session = { step.next.session with
    messageSize := step'.next.session.messageSize
    skipped := step'.next.session.skipped }
  activity : step'.next.activity = step.next.activity
  resetMode : step'.next.resetMode = step.next.resetMode
  parallelDecode : step'.next.parallelDecode = step.next.parallelDecode

namespace Controller

/-- What goes wrong with a buffer stays with that buffer. An image message does what it does without the buffers that
are empty, metadata by their name, declared as nothing known or rejected by the decoder; only the size of the message
and the names of the buffers that were left out tell. When the message comes to its end, those names are, in order,
the ones of the buffers with a payload and an image's name that are declared as nothing known or rejected. -/
theorem take_withoutIdle (decoders : Decoders μ) (c : Controller μ) (m : Message) (hi : m.isImage = true) :
    (c.take decoders m).SameButSkipped (c.take decoders (m.withoutIdle decoders.codec)) ∧
      ((c.take decoders m).result = .ok () → (c.take decoders m).next.session.skipped =
        (m.buffers.filter fun b =>
          !b.isEmpty && !b.isMetadata && b.isUnusable decoders.codec m.header.layout).map (·.name)) := by
  have hi' : (m.withoutIdle decoders.codec).isImage = true := hi
  have hlayout : (Delivery.mk (c.storeBefore m.header) c.metadata []).store.layout = m.header.layout :=
    c.layout_storeBefore m.header
  constructor
  · obtain ⟨hresult, hstore⟩ := Delivery.run_withoutIdle decoders ⟨c.storeBefore m.header, c.metadata, []⟩
      ⟨c.storeBefore m.header, c.metadata, []⟩ rfl m.buffers
    rw [hlayout] at hresult hstore
    change (c.delivery decoders (m.withoutIdle decoders.codec)).2 = (c.delivery decoders m).2 at hresult
    change (c.delivery decoders (m.withoutIdle decoders.codec)).1.store = (c.delivery decoders m).1.store at hstore
    rw [take_of_image hi, take_of_image hi', hresult, hstore]
    cases (c.delivery decoders m).2 with
    | ok => exact ⟨rfl, rfl, rfl, rfl, rfl, rfl, rfl⟩
    | error e => exact ⟨rfl, rfl, rfl, rfl, rfl, rfl, rfl⟩
  · intro hok
    have hskipped := (Delivery.run_spec decoders ⟨c.storeBefore m.header, c.metadata, []⟩ m.buffers).2.2
    rw [hlayout, List.nil_append] at hskipped
    change (c.delivery decoders m).2 = .ok () → (c.delivery decoders m).1.skipped = _ at hskipped
    rw [take_of_image hi] at hok ⊢
    simp only at hok
    simp only [hok]
    rw [SessionState.noteDelivery, hskipped hok, NamedBuffer.skippedNames]
    simp only [NamedBuffer.isSkipped_eq]

/-- Between two pixels come a payload and an alias that are rejected, a buffer of no known type, an empty one, and
metadata that is declared as an AOV. The message leaves what the two pixels leave, and no AOV. -/
theorem take_withoutIdle_twoPixels :
    let picky : Decoders Nat := { Decoders.firstByte with
      codec :=
        { decode := fun dataType bytes layout =>
            if bytes.data.getD 0 0 ≤ 1 then Decoders.firstByte.codec.decode dataType bytes layout else none
          decodeReference := fun _ => none } }
    let m := Message.start 7 [⟨"left", .beauty, ⟨#[0]⟩⟩, ⟨"garbage", .aovGeneric, ⟨#[9]⟩⟩,
      ⟨"mystery", .unrecognized, ⟨#[0]⟩⟩, ⟨"empty", .weight, ⟨#[]⟩⟩, ⟨"auxInfo", .aovGeneric, ⟨#[1]⟩⟩,
      ⟨"alias", .aovReference, ⟨#[0]⟩⟩, ⟨"right", .beauty, ⟨#[1]⟩⟩]
    let c := Controller.new .full false ⟨1⟩ 0
    ((m.withoutIdle picky.codec).buffers.map (·.name) = ["left", "right"] ∧
      (c.take picky m).SameButSkipped (c.take picky (m.withoutIdle picky.codec))) ∧
      (c.take picky m).next.session.skipped = ["garbage", "mystery", "alias"] ∧
      (c.take picky m).next.store.aovs.size = 0 := by
  intro picky m c
  obtain ⟨hsame, hskipped⟩ := take_withoutIdle picky c m (by decide)
  refine ⟨⟨by decide +kernel, hsame⟩, ?_, by decide +kernel⟩
  rw [hskipped (by decide +kernel)]
  decide +kernel

end Controller

end ProgressiveFrame
