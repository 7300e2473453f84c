import ProgressiveFrame.Proofs.Tile.Packing

/-!
# The history of a channel

A channel is what its history prescribes, slot by slot. A history lists the updates that were merged
and the resets, the newest first.

* **What a history prescribes**: `ChannelHistory.isCovered`, `values`, `count?` and `precision`. Each
  asks for the latest update of some sort since the last reset of some sort, so none of them follows
  the channel.
* **Shape** (`Channel.Sized`): all buffers of a channel have the length that the layout asks for.
* **The law** (`Channel.Tracks`): the channel has the shape and holds in every slot what the history
  prescribes. The empty channel tracks a history without updates (`Tracks.empty`), and every operation
  extends the history by one event (`Tracks.update`, `Tracks.reset`, `Tracks.resetCoverage`).
* **Pixels** (`Channel.Shows`): what follows for the pixels of the image (`Tracks.shows`).
-/

namespace ProgressiveFrame

/-- What a channel has met. -/
inductive ChannelEvent where
  /-- An update that was merged. -/
  | update (u : TileUpdate)
  /-- The start of a frame. The values go unless they are kept; coverage and ray counts always go. -/
  | reset (keepsValues : Bool)

namespace ChannelEvent

/-- Whether the event starts a frame. -/
def isReset : ChannelEvent → Bool
  | .update _ => false
  | .reset _ => true

/-- Whether the event takes the values of the channel. -/
def wipesValues : ChannelEvent → Bool
  | .update _ => false
  | .reset keepsValues => !keepsValues

/-- The update that was merged. -/
def update? : ChannelEvent → Option TileUpdate
  | .update u => some u
  | .reset _ => none

end ChannelEvent

namespace TileUpdate

/-- Whether the update carries values for a slot. -/
def covers (u : TileUpdate) (slot : Nat) : Bool := u.mask.isSlotSet slot

/-- The values that the update carries at the rank of a slot. -/
def valuesAt (u : TileUpdate) (slot : Nat) : Array Binary32 := packedAt u.mask u.numChan u.values slot

/-- The ray count that the update carries at the rank of a slot, if it covers the slot and has counts. -/
def countAt? (u : TileUpdate) (slot : Nat) : Option Binary32 :=
  if u.covers slot then u.sampleCounts.map (·.getD (u.mask.rank slot) .zero) else none

/-- What a channel asks of an update before it writes anything. -/
structure Fits (u : TileUpdate) (layout : TileLayout) (numChan : Nat) : Prop where
  layout_eq : u.mask.layout = layout
  numChan_eq : u.numChan = numChan
  size_values : u.values.size = u.mask.activeCount * numChan
  size_counts : ∀ counts, u.sampleCounts = some counts → counts.size = u.mask.activeCount

theorem mismatch?_eq_none_iff {u : TileUpdate} {layout : TileLayout} {numChan : Nat} :
    u.mismatch? layout numChan = none ↔ u.Fits layout numChan := by
  constructor
  · intro h
    have hl : u.mask.layout = layout := Decidable.byContradiction fun hne => by simp [mismatch?, hne] at h
    have hn : u.numChan = numChan := Decidable.byContradiction fun hne => by simp [mismatch?, hl, hne] at h
    have hv : u.values.size = u.mask.activeCount * numChan :=
      Decidable.byContradiction fun hne => by simp [mismatch?, hl, hn, hne] at h
    exact ⟨hl, hn, hv, fun counts hc =>
      Decidable.byContradiction fun hne => by simp [mismatch?, hl, hn, hv, hc, hne] at h⟩
  · intro ⟨hl, hn, hv, hc⟩
    cases hs : u.sampleCounts with
    | none => simp [mismatch?, hl, hn, hv, hs]
    | some counts => simp [mismatch?, hl, hn, hv, hs, hc counts hs]

end TileUpdate

/-- The events of a channel, the newest first. -/
abbrev ChannelHistory := List ChannelEvent

namespace ChannelHistory

/-- The updates since the last reset, the newest first. -/
def sinceReset (h : ChannelHistory) : List TileUpdate := (h.takeWhile (!·.isReset)).filterMap (·.update?)

/-- The updates since the last reset that took the values, the newest first. -/
def sinceWipe (h : ChannelHistory) : List TileUpdate := (h.takeWhile (!·.wipesValues)).filterMap (·.update?)

/-- Whether an update since the last reset covers a slot. -/
def isCovered (h : ChannelHistory) (slot : Nat) : Bool := h.sinceReset.any (·.covers slot)

/-- What the latest update that covers a slot carries for it, of those since the values were last taken.
Zeros without such an update. -/
def values (h : ChannelHistory) (numChan slot : Nat) : Array Binary32 :=
  match h.sinceWipe.find? (·.covers slot) with
  | some u => u.valuesAt slot
  | none => .replicate numChan .zero

/-- Whether an update with ray counts came since the last reset. -/
def hasCounts (h : ChannelHistory) : Bool := h.sinceReset.any (·.sampleCounts.isSome)

/-- The ray count that the latest update with counts carries for a slot, of those since the last reset that
cover it. Zero without such an update. -/
def count (h : ChannelHistory) (slot : Nat) : Binary32 := (h.sinceReset.findSome? (·.countAt? slot)).getD .zero

/-- The encodings of the latest update. -/
def precision (h : ChannelHistory) : PassPrecision := ((h.filterMap (·.update?)).head?.map (·.precision)).getD {}

section Cons

variable (u : TileUpdate) (keepsValues : Bool) (h : ChannelHistory) (numChan slot : Nat)

@[simp] theorem sinceReset_update : sinceReset (.update u :: h) = u :: sinceReset h := rfl

@[simp] theorem sinceReset_reset : sinceReset (.reset keepsValues :: h) = [] := rfl

@[simp] theorem sinceWipe_update : sinceWipe (.update u :: h) = u :: sinceWipe h := rfl

@[simp] theorem sinceWipe_wipe : sinceWipe (.reset false :: h) = [] := rfl

@[simp] theorem sinceWipe_keep : sinceWipe (.reset true :: h) = sinceWipe h := rfl

@[simp] theorem precision_update : precision (.update u :: h) = u.precision := rfl

@[simp] theorem precision_reset : precision (.reset keepsValues :: h) = precision h := rfl

theorem isCovered_update : isCovered (.update u :: h) slot = (u.covers slot || isCovered h slot) := rfl

theorem values_update : values (.update u :: h) numChan slot =
    if u.covers slot then u.valuesAt slot else values h numChan slot := by
  cases hc : u.covers slot <;> simp [values, hc]

theorem hasCounts_update : hasCounts (.update u :: h) = (u.sampleCounts.isSome || hasCounts h) := rfl

theorem count_update : count (.update u :: h) slot = (u.countAt? slot).getD (count h slot) := by
  rw [count, sinceReset_update, List.findSome?_cons]
  cases u.countAt? slot <;> rfl

end Cons

/-- A history without updates, which only resets the channel. -/
def IsBlank (h : ChannelHistory) : Prop := h.filterMap (·.update?) = []

theorem IsBlank.sublist {h h' : ChannelHistory} (hb : h.IsBlank) (hs : h'.Sublist h) :
    h'.filterMap (·.update?) = [] := by
  have := hs.filterMap (·.update?)
  rw [hb] at this
  exact List.sublist_nil.mp this

theorem IsBlank.sinceReset_eq {h : ChannelHistory} (hb : h.IsBlank) : h.sinceReset = [] :=
  hb.sublist (List.takeWhile_sublist _)

theorem IsBlank.sinceWipe_eq {h : ChannelHistory} (hb : h.IsBlank) : h.sinceWipe = [] :=
  hb.sublist (List.takeWhile_sublist _)

end ChannelHistory

namespace Channel

variable {c c' : Channel} {layout : TileLayout} {u : TileUpdate} {h : ChannelHistory}

/-! ## Shape -/

/-- The buffers of a channel have the lengths that the layout asks for. -/
structure Sized (c : Channel) (layout : TileLayout) : Prop where
  layout_eq : c.layout = layout
  mask_layout : c.mask.layout = layout
  size_bits : c.mask.bits.size = layout.capacity
  size_data : c.data.size = layout.capacity * c.numChan
  size_counts : ∀ counts, c.sampleCounts = some counts → counts.size = layout.capacity

theorem Sized.empty (layout : TileLayout) (numChan : Nat) : (Channel.empty layout numChan).Sized layout where
  layout_eq := rfl
  mask_layout := rfl
  size_bits := PixelMask.size_bits_empty layout
  size_data := size_data_empty layout numChan
  size_counts _ hc := nomatch hc

theorem Sized.reset (hs : c.Sized layout) : c.reset.Sized layout where
  layout_eq := hs.layout_eq
  mask_layout := hs.mask_layout
  size_bits := (PixelMask.size_bits_clear _).trans hs.size_bits
  size_data := (size_data_reset c).trans hs.size_data
  size_counts _ hc := nomatch hc

theorem Sized.resetCoverage (hs : c.Sized layout) : c.resetCoverage.Sized layout where
  layout_eq := hs.layout_eq
  mask_layout := hs.mask_layout
  size_bits := (PixelMask.size_bits_clear _).trans hs.size_bits
  size_data := hs.size_data
  size_counts _ hc := nomatch hc

theorem Sized.size_countsOrZero (hs : c.Sized layout) : c.countsOrZero.size = layout.capacity := by
  unfold countsOrZero
  cases hc : c.sampleCounts with
  | none => simp [hs.layout_eq]
  | some counts => exact hs.size_counts counts hc

/-- What a merge that succeeds asks for and what it writes. -/
theorem mergeUpdate_ok (hu : c.mergeUpdate u = .ok c') :
    u.Fits c.layout c.numChan ∧ ∃ mask, c.mask.merge u.mask = .ok mask ∧
      c' = { c with
        data := overlay u.mask c.numChan c.data u.values
        sampleCounts := match u.sampleCounts with
          | some counts => some (overlay u.mask 1 c.countsOrZero counts)
          | none => c.sampleCounts
        mask
        precision := u.precision } := by
  unfold mergeUpdate at hu
  split at hu
  · cases hu
  · rename_i hm
    refine ⟨TileUpdate.mismatch?_eq_none_iff.mp hm, ?_⟩
    cases hmask : c.mask.merge u.mask with
    | error e => rw [hmask] at hu; cases hu
    | ok mask => rw [hmask] at hu; cases hu; exact ⟨mask, rfl, rfl⟩

theorem Sized.mergeUpdate (hs : c.Sized layout) (hu : c.mergeUpdate u = .ok c') : c'.Sized layout := by
  obtain ⟨-, mask, hmask, rfl⟩ := mergeUpdate_ok hu
  refine ⟨hs.layout_eq, (PixelMask.layout_of_merge hmask).trans hs.mask_layout,
    (PixelMask.size_bits_of_merge hmask).trans hs.size_bits, by simpa using hs.size_data, fun counts hc => ?_⟩
  cases hn : u.sampleCounts with
  | none => simp only [hn] at hc; exact hs.size_counts counts hc
  | some new =>
    simp only [hn, Option.some.injEq] at hc
    rw [← hc, size_overlay, hs.size_countsOrZero]

/-- The values of a slot of the layout lie inside the buffer. -/
theorem Sized.slot_le (hs : c.Sized layout) {slot : Nat} (hlt : slot < layout.capacity) :
    (slot + 1) * c.numChan ≤ c.data.size := by
  rw [hs.size_data]
  exact Nat.mul_le_mul_right _ hlt

theorem Sized.value_lt (hs : c.Sized layout) {slot j : Nat} (hlt : slot < layout.capacity) (hj : j < c.numChan) :
    slot * c.numChan + j < c.data.size := by
  have hle := hs.slot_le hlt
  rw [Nat.succ_mul] at hle
  omega

/-! ## The law -/

/-- The channel holds in every slot what the history prescribes. -/
structure Tracks (c : Channel) (layout : TileLayout) (h : ChannelHistory) : Prop extends c.Sized layout where
  covered : ∀ slot < layout.capacity, c.mask.isSlotSet slot = h.isCovered slot
  values : ∀ slot < layout.capacity, c.slotValues slot = h.values c.numChan slot
  hasCounts : c.sampleCounts.isSome = h.hasCounts
  count : ∀ slot < layout.capacity, c.countsOrZero.getD slot .zero = h.count slot
  precision : c.precision = h.precision

theorem slotValues_zero {slot n : Nat} (hle : (slot + 1) * c.numChan ≤ n)
    (hd : c.data = Array.replicate n .zero) : c.slotValues slot = .replicate c.numChan .zero := by
  have hsucc : (slot + 1) * c.numChan = slot * c.numChan + c.numChan := Nat.succ_mul ..
  rw [slotValues, hd, Array.extract_replicate]
  congr 1
  omega

theorem getD_replicate_zero (n slot : Nat) :
    (Array.replicate n Binary32.zero).getD slot Binary32.zero = Binary32.zero := by
  rw [Array.getD_eq_getD_getElem?, Array.getElem?_replicate]
  split <;> rfl

/-- An empty channel tracks any history in which nothing was merged. -/
theorem Tracks.empty (layout : TileLayout) (numChan : Nat) (hb : h.IsBlank) :
    (Channel.empty layout numChan).Tracks layout h where
  toSized := .empty layout numChan
  covered slot _ := by
    rw [ChannelHistory.isCovered, hb.sinceReset_eq]
    exact PixelMask.isSlotSet_empty layout slot
  values slot hlt := by
    rw [ChannelHistory.values, hb.sinceWipe_eq]
    exact slotValues_zero (Nat.mul_le_mul_right _ hlt) rfl
  hasCounts := by
    rw [ChannelHistory.hasCounts, hb.sinceReset_eq]
    rfl
  count slot _ := by
    rw [ChannelHistory.count, hb.sinceReset_eq]
    exact getD_replicate_zero _ slot
  precision := by
    rw [ChannelHistory.precision, hb]
    rfl

/-- A merge adds the update to the history. -/
theorem Tracks.update (ht : c.Tracks layout h) (hu : c.mergeUpdate u = .ok c') : c'.Tracks layout (.update u :: h) := by
  have hsized := ht.toSized.mergeUpdate hu
  obtain ⟨hf, mask, hmask, rfl⟩ := mergeUpdate_ok hu
  refine ⟨hsized, fun slot hlt => ?_, fun slot hlt => ?_, ?_, fun slot hlt => ?_, rfl⟩
  · have hin : slot < c.mask.bits.size := ht.size_bits ▸ hlt
    rw [PixelMask.isSlotSet_of_merge hmask, ht.covered slot hlt, ChannelHistory.isCovered_update, Bool.or_comm]
    simp [hin, TileUpdate.covers]
  · rw [ChannelHistory.values_update, slotValues, extract_overlay hf.size_values (ht.slot_le hlt),
      ← ht.values slot hlt, TileUpdate.valuesAt, hf.numChan_eq]
    rfl
  · rw [ChannelHistory.hasCounts_update, ← ht.hasCounts]
    cases u.sampleCounts <;> simp
  · rw [ChannelHistory.count_update, ← ht.count slot hlt, TileUpdate.countAt?]
    cases hn : u.sampleCounts with
    | none => simp [countsOrZero]
    | some counts =>
      have hin : slot < c.countsOrZero.size := ht.size_countsOrZero ▸ hlt
      simp only [countsOrZero, Option.getD_some]
      rw [← countsOrZero, getD_overlay (hf.size_counts counts hn) hin, TileUpdate.covers]
      split <;> simp

/-- A reset without ray counts and coverage starts a frame, whatever becomes of the values. -/
theorem Tracks.restart (ht : c.Tracks layout h) {keepsValues : Bool} (hs : c'.Sized layout)
    (hm : c'.mask = c.mask.clear) (hn : c'.sampleCounts = none) (hp : c'.precision = c.precision)
    (hv : ∀ slot < layout.capacity,
      c'.slotValues slot = ChannelHistory.values (.reset keepsValues :: h) c'.numChan slot) :
    c'.Tracks layout (.reset keepsValues :: h) where
  toSized := hs
  covered slot _ := by rw [hm, PixelMask.isSlotSet_clear]; rfl
  values := hv
  hasCounts := by rw [hn]; rfl
  count slot _ := by
    rw [countsOrZero, hn]
    exact getD_replicate_zero _ slot
  precision := hp.trans ht.precision

theorem Tracks.reset (ht : c.Tracks layout h) : c.reset.Tracks layout (.reset false :: h) := by
  refine ht.restart ht.toSized.reset rfl rfl rfl fun slot hlt => ?_
  have hd : c.reset.data = Array.replicate c.data.size .zero := Array.map_const' ..
  exact slotValues_zero (ht.slot_le hlt) hd

theorem Tracks.resetCoverage (ht : c.Tracks layout h) : c.resetCoverage.Tracks layout (.reset true :: h) :=
  ht.restart ht.toSized.resetCoverage rfl rfl rfl ht.values

/-! ## Pixels -/

/-- Every pixel of the image is what the history prescribes for its slot. -/
structure Shows (c : Channel) (layout : TileLayout) (h : ChannelHistory) : Prop where
  layout_eq : c.layout = layout
  covered : ∀ x y, layout.inImage x y = true → c.mask.isSet x y = h.isCovered (layout.slot x y)
  values : ∀ x y, layout.inImage x y = true → c.pixel? x y = some (h.values c.numChan (layout.slot x y))
  /-- There are ray counts at all. -/
  hasCounts : c.sampleCounts.isSome = h.hasCounts
  count : ∀ x y, layout.inImage x y = true →
    c.sampleCount? x y = if h.hasCounts then some (h.count (layout.slot x y)) else none
  precision : c.precision = h.precision

theorem Tracks.shows (ht : c.Tracks layout h) : c.Shows layout h where
  layout_eq := ht.layout_eq
  covered x y hin := by
    rw [PixelMask.isSet, ht.mask_layout, hin, Bool.true_and]
    exact ht.covered _ (TileLayout.slot_lt_capacity hin)
  values x y hin := by
    rw [pixel?, ht.layout_eq, if_pos hin]
    exact congrArg some (ht.values _ (TileLayout.slot_lt_capacity hin))
  hasCounts := ht.hasCounts
  count x y hin := by
    have hcount := ht.count _ (TileLayout.slot_lt_capacity hin)
    rw [sampleCount?, ht.layout_eq, if_pos hin, ← ht.hasCounts, ← hcount, countsOrZero]
    cases c.sampleCounts <;> rfl
  precision := ht.precision

end Channel

end ProgressiveFrame
