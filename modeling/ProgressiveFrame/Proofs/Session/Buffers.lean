import ProgressiveFrame.Proofs.Store.Rows
import ProgressiveFrame.Session.Controller

/-!
# What buffers ask for

A buffer of an image message asks the store for at most one write, and says so by itself: the write
depends on the decoder and on the tile layout, not on what the store holds.

* `NamedBuffer.write?`: the write of a buffer. `NamedBuffer.place?` is where it goes, told from the
  declared type and the name alone (`place?_eq_of_write?`).
* `NamedBuffer.fitting`: the buffers of a row that are taken, up to the first one whose write is refused.
* `dispatch_of_write`, `dispatch_of_none`: taking a buffer in is doing its write.
* `run_spec`: so the buffers of a message do the row of their writes, and those that are left out can be
  told beforehand.
-/

namespace ProgressiveFrame

namespace NamedBuffer

/-- Whether the buffer is no part of the image. -/
def isAside (b : NamedBuffer) : Bool := b.isEmpty || b.isMetadata

/-- Where the buffer goes. -/
def place? (b : NamedBuffer) : Option Place :=
  if b.isAside then none
  else match b.dataType.target with
    | .channel kind => some (.channel kind)
    | .aov | .reference => some (.aov b.name)
    | .nowhere => none

/-- The write that the buffer asks for, if it can be decoded. -/
def write? (codec : Codec) (layout : TileLayout) (b : NamedBuffer) : Option Write :=
  if b.isAside then none
  else match b.dataType.target with
    | .channel kind => (codec.decode b.dataType b.bytes layout).map (.update kind)
    | .aov => (codec.decode b.dataType b.bytes layout).map (.updateAov b.name)
    | .reference => (codec.decodeReference b.bytes).map (.reference b.name)
    | .nowhere => none

/-- Whether the buffer is a part of the image and is left out. -/
def isSkipped (codec : Codec) (layout : TileLayout) (b : NamedBuffer) : Bool :=
  !b.isAside && (b.write? codec layout).isNone

/-- The row of writes that buffers ask for. -/
def writes (codec : Codec) (layout : TileLayout) (bs : List NamedBuffer) : List Write :=
  bs.filterMap (·.write? codec layout)

/-- The names of the buffers that are left out. -/
def skippedNames (codec : Codec) (layout : TileLayout) (bs : List NamedBuffer) : List String :=
  (bs.filter (·.isSkipped codec layout)).map (·.name)

/-- The buffers of a row that are taken: those before the first one whose write the store refuses. -/
def fitting (codec : Codec) : FrameStore → List NamedBuffer → List NamedBuffer
  | _, [] => []
  | s, b :: bs =>
    match b.write? codec s.layout with
    | none => b :: fitting codec s bs
    | some w =>
      match (s.write w).2 with
      | .ok () => b :: fitting codec (s.write w).1 bs
      | .error _ => []

section Fitting

variable {codec : Codec} {s : FrameStore} {b : NamedBuffer} {bs : List NamedBuffer} {w : Write}

theorem fitting_cons_of_none (h : b.write? codec s.layout = none) :
    fitting codec s (b :: bs) = b :: fitting codec s bs := by
  rw [fitting, h]

theorem fitting_cons_of_ok (h : b.write? codec s.layout = some w) (hok : (s.write w).2 = .ok ()) :
    fitting codec s (b :: bs) = b :: fitting codec (s.write w).1 bs := by
  rw [fitting, h]
  simp only [hok]

theorem fitting_cons_of_error {e : FrameError} (h : b.write? codec s.layout = some w)
    (herror : (s.write w).2 = .error e) : fitting codec s (b :: bs) = [] := by
  rw [fitting, h]
  simp only [herror]

end Fitting

variable {codec : Codec} {layout : TileLayout} {b : NamedBuffer} {w : Write}

theorem isAside_of_write? (h : b.write? codec layout = some w) : b.isAside = false := by
  unfold write? at h
  split at h
  · cases h
  · rename_i haside
    exact Bool.eq_false_iff.mpr haside

/-- The place of a write is known without decoding. -/
theorem place?_eq_of_write? (h : b.write? codec layout = some w) : b.place? = some w.place := by
  have haside := isAside_of_write? h
  rw [write?, haside] at h
  rw [place?, haside]
  cases ht : b.dataType.target with
  | channel kind =>
    rw [ht] at h
    obtain ⟨u, -, rfl⟩ := Option.map_eq_some_iff.mp h
    rfl
  | aov =>
    rw [ht] at h
    obtain ⟨u, -, rfl⟩ := Option.map_eq_some_iff.mp h
    rfl
  | reference =>
    rw [ht] at h
    obtain ⟨kind, -, rfl⟩ := Option.map_eq_some_iff.mp h
    rfl
  | nowhere => rw [ht] at h; cases h

/-- The writes to a place are those of the buffers that go there. -/
theorem onPlace_writes (codec : Codec) (layout : TileLayout) (bs : List NamedBuffer) (p : Place) :
    Write.onPlace (writes codec layout bs) p = writes codec layout (bs.filter (·.place? = some p)) := by
  induction bs with
  | nil => rfl
  | cons b bs ih =>
    simp only [writes, Write.onPlace] at ih ⊢
    cases hw : b.write? codec layout with
    | some w =>
      have hplace := place?_eq_of_write? hw
      rw [List.filterMap_cons_some hw]
      by_cases hp : w.place = p
      · rw [List.filter_cons_of_pos (by simpa using hp), List.filter_cons_of_pos (by simp [hplace, hp]),
          List.filterMap_cons_some hw, ih]
      · rw [List.filter_cons_of_neg (by simpa using hp), List.filter_cons_of_neg (by simp [hplace, hp]), ih]
    | none =>
      rw [List.filterMap_cons_none hw, ih]
      by_cases hp : b.place? = some p
      · rw [List.filter_cons_of_pos (by simpa using hp), List.filterMap_cons_none hw]
      · rw [List.filter_cons_of_neg (by simpa using hp)]

end NamedBuffer

namespace Delivery

variable {μ : Type} {decoders : Decoders μ} {d : Delivery μ} {b : NamedBuffer} {w : Write}

theorem merge_channel {kind : WellKnown} (ht : b.dataType.target = .channel kind) (d : Delivery μ) (u : TileUpdate) :
    d.merge b u = ({ d with store := (d.store.mergeUpdate kind u).1 },
      (d.store.mergeUpdate kind u).2.mapError fun cause => ⟨b.name, cause⟩) := by
  rw [merge, ht]

theorem merge_aov (ht : b.dataType.target = .aov) (d : Delivery μ) (u : TileUpdate) :
    d.merge b u = ({ d with store := (d.store.mergeAov b.name u).1 },
      (d.store.mergeAov b.name u).2.mapError fun cause => ⟨b.name, cause⟩) := by
  rw [merge, ht]

/-- A buffer does its write and nothing else. -/
theorem dispatch_of_write (h : b.write? decoders.codec d.store.layout = some w) :
    d.dispatch decoders b = ({ d with store := (d.store.write w).1 },
      (d.store.write w).2.mapError fun cause => ⟨b.name, cause⟩) := by
  have haside := NamedBuffer.isAside_of_write? h
  obtain ⟨hempty, hmeta⟩ := Bool.or_eq_false_iff.mp haside
  rw [NamedBuffer.write?, haside] at h
  rw [dispatch, hempty, hmeta]
  cases ht : b.dataType.target with
  | channel kind =>
    rw [ht] at h
    obtain ⟨u, hu, rfl⟩ := Option.map_eq_some_iff.mp h
    simp [hu, merge_channel ht, FrameStore.write]
  | aov =>
    rw [ht] at h
    obtain ⟨u, hu, rfl⟩ := Option.map_eq_some_iff.mp h
    simp [hu, merge_aov ht, FrameStore.write]
  | reference =>
    rw [ht] at h
    obtain ⟨kind, hkind, rfl⟩ := Option.map_eq_some_iff.mp h
    simp only [hkind, FrameStore.write]
    rfl
  | nowhere => rw [ht] at h; cases h

/-- A buffer without a write leaves the store. It is noted when it should have been a part of the image. -/
theorem dispatch_of_none (h : b.write? decoders.codec d.store.layout = none) :
    (d.dispatch decoders b).2 = .ok () ∧ (d.dispatch decoders b).1.store = d.store ∧
      (d.dispatch decoders b).1.skipped =
        d.skipped ++ NamedBuffer.skippedNames decoders.codec d.store.layout [b] := by
  cases hempty : b.isEmpty with
  | true => simp [dispatch, NamedBuffer.skippedNames, NamedBuffer.isSkipped, NamedBuffer.isAside, hempty]
  | false =>
    cases hmeta : b.isMetadata with
    | true => simp [dispatch, NamedBuffer.skippedNames, NamedBuffer.isSkipped, NamedBuffer.isAside, hempty, hmeta]
    | false =>
      have haside : b.isAside = false := by rw [NamedBuffer.isAside, hempty, hmeta]; rfl
      have hskip : NamedBuffer.skippedNames decoders.codec d.store.layout [b] = [b.name] := by
        simp [NamedBuffer.skippedNames, NamedBuffer.isSkipped, haside, h]
      rw [hskip, dispatch, hempty, hmeta]
      rw [NamedBuffer.write?, haside] at h
      cases ht : b.dataType.target with
      | channel kind => rw [ht] at h; simp [Option.map_eq_none_iff.mp h, skip]
      | aov => rw [ht] at h; simp [Option.map_eq_none_iff.mp h, skip]
      | reference => rw [ht] at h; simp [Option.map_eq_none_iff.mp h, skip]
      | nowhere => simp [skip]

theorem run_cons_of_ok {bs : List NamedBuffer} (h : (d.dispatch decoders b).2 = .ok ()) :
    run decoders d (b :: bs) = run decoders (d.dispatch decoders b).1 bs := by
  rw [run]
  generalize d.dispatch decoders b = r at h
  obtain ⟨d', _⟩ := r
  cases h
  rfl

theorem run_cons_of_error {bs : List NamedBuffer} {e : IngestError} (h : (d.dispatch decoders b).2 = .error e) :
    run decoders d (b :: bs) = ((d.dispatch decoders b).1, .error e) := by
  rw [run]
  generalize d.dispatch decoders b = r at h
  obtain ⟨d', _⟩ := r
  cases h
  rfl

/-- All that the buffers of a message do to the store, and what is noted of them when they come to their end. -/
theorem run_spec (decoders : Decoders μ) (d : Delivery μ) (bs : List NamedBuffer) :
    (run decoders d bs).1.store =
        (d.store.writeAll (NamedBuffer.writes decoders.codec d.store.layout bs)).1 ∧
      ((run decoders d bs).2 = .ok () ↔
        (d.store.writeAll (NamedBuffer.writes decoders.codec d.store.layout bs)).2 = .ok ()) ∧
      ((run decoders d bs).2 = .ok () → (run decoders d bs).1.skipped =
        d.skipped ++ NamedBuffer.skippedNames decoders.codec d.store.layout bs) := by
  induction bs generalizing d with
  | nil => exact ⟨rfl, ⟨fun _ => rfl, fun _ => rfl⟩, fun _ => (List.append_nil _).symm⟩
  | cons b bs ih =>
    have hnames (layout : TileLayout) : NamedBuffer.skippedNames decoders.codec layout (b :: bs) =
        NamedBuffer.skippedNames decoders.codec layout [b] ++ NamedBuffer.skippedNames decoders.codec layout bs := by
      simp only [NamedBuffer.skippedNames, ← List.map_append, ← List.filter_append]
      rfl
    cases hw : b.write? decoders.codec d.store.layout with
    | none =>
      obtain ⟨hok, hstore, hskipped⟩ := dispatch_of_none hw
      obtain ⟨ihstore, ihok, ihskipped⟩ := ih (d.dispatch decoders b).1
      rw [run_cons_of_ok hok, NamedBuffer.writes, List.filterMap_cons_none hw]
      rw [hstore] at ihstore ihok ihskipped
      refine ⟨ihstore, ihok, fun hrun => ?_⟩
      rw [ihskipped hrun, hskipped, hnames, List.append_assoc]
    | some w =>
      have hdispatch := dispatch_of_write hw
      have hnone : NamedBuffer.skippedNames decoders.codec d.store.layout [b] = [] := by
        simp [NamedBuffer.skippedNames, NamedBuffer.isSkipped, hw]
      rw [NamedBuffer.writes, List.filterMap_cons_some hw]
      cases hans : (d.store.write w).2 with
      | ok =>
        have hok : (d.dispatch decoders b).2 = .ok () := by rw [hdispatch, hans]; rfl
        obtain ⟨ihstore, ihok, ihskipped⟩ := ih (d.dispatch decoders b).1
        rw [run_cons_of_ok hok, FrameStore.writeAll_cons_of_ok hans]
        simp only [hdispatch, FrameStore.layout_write] at ihstore ihok ihskipped ⊢
        refine ⟨ihstore, ihok, fun hrun => ?_⟩
        rw [ihskipped hrun, hnames, hnone, List.nil_append]
      | error e =>
        have herror : (d.dispatch decoders b).2 = .error ⟨b.name, e⟩ := by rw [hdispatch, hans]; rfl
        rw [run_cons_of_error herror, FrameStore.writeAll_cons_of_error hans, hdispatch]
        exact ⟨rfl, ⟨nofun, nofun⟩, nofun⟩

end Delivery

end ProgressiveFrame
