import ProgressiveFrame.Proofs.Bounds.Blend
import ProgressiveFrame.Proofs.Bounds.Channel

/-!
# Merges stay in their channel

A merge checks the shape of what it is given, and writes slot by slot then. What it has checked is enough: each slot
that an update covers has its values in the update and its place in the channel, and the blends and mask merges further
in find nothing to refuse.

* `Channel.mergeUpdateChecked`, `Channel.mergeWeightedChecked`: merges that ask for each part of a buffer first, and
  have no result where an inner operation refuses.
* `Sound.mergeUpdateChecked_eq`, `Sound.mergeWeightedChecked_eq`: they have the results of the merges.
-/

namespace ProgressiveFrame

/-- Packed values are copied to the active slots one after another. -/
def overlayChecked (mask : PixelMask) (width : Nat) (stored packed : Array Binary32) : Option (Array Binary32) :=
  mask.activeSlots.zipIdx.foldlM (fun stored (slot, rank) => do
    let values ← slice? packed (rank * width) ((rank + 1) * width)
    writeSlice? stored (slot * width) ((slot + 1) * width) values) stored

/-- The active slots are counted by their ranks. -/
theorem PixelMask.rank_of_mem_zipIdx {mask : PixelMask} {slot rank : Nat} (h : (slot, rank) ∈ mask.activeSlots.zipIdx) :
    mask.isSlotSet slot = true ∧ mask.rank slot = rank := by
  have hat : mask.activeSlots[rank]? = some slot := List.mem_zipIdx_iff_getElem?.mp h
  obtain ⟨hlt, rfl⟩ := List.getElem?_eq_some_iff.mp hat
  have hnodup : mask.activeSlots.Nodup := List.nodup_range.filter _
  exact ⟨mem_activeSlots.mp (List.getElem_mem hlt), hnodup.idxOf_getElem rank hlt⟩

/-- Every active slot has its values and its place. -/
theorem overlayChecked_eq {mask : PixelMask} {width : Nat} {stored packed : Array Binary32}
    (hpacked : packed.size = mask.activeCount * width) (hstored : stored.size = mask.bits.size * width) :
    overlayChecked mask width stored packed = some (overlay mask width stored packed) := by
  have hslotted : Slotted width mask.bits.size stored (overlay mask width stored packed) :=
    ⟨hstored, by rw [size_overlay, hstored]⟩
  refine hslotted.foldlM_eq (fun item => [item.1]) (fun pre item post hsplit => ?_) fun k hk hnot => ?_
  · obtain ⟨slot, rank⟩ := item
    have hmem : (slot, rank) ∈ mask.activeSlots.zipIdx := by rw [hsplit]; simp
    obtain ⟨hset, rfl⟩ := PixelMask.rank_of_mem_zipIdx hmem
    have hslot := PixelMask.lt_size_of_isSlotSet hset
    obtain ⟨hfirst, hlast⟩ := slot_le_size width (PixelMask.rank_lt hset)
    have hvalues : packedAt mask width packed slot =
        (overlay mask width stored packed).extract (slot * width) ((slot + 1) * width) := by
      rw [extract_overlay hpacked (by rw [hstored]; exact (slot_le_size _ hslot).2), if_pos hset]
    simp only [slice?_of_le hfirst (hpacked ▸ hlast), Option.bind_eq_bind, Option.bind_some]
    exact hslotted.writeSlice?_patched _ hslot hvalues
  · have hbare : mask.isSlotSet (k / width) = false := by
      by_contra hset
      rw [Bool.not_eq_false, ← PixelMask.mem_activeSlots] at hset
      obtain ⟨rank, hrank⟩ := List.mem_iff_getElem?.mp hset
      have hmem : (k / width, rank) ∈ mask.activeSlots.zipIdx := List.mem_zipIdx_iff_getElem?.mpr hrank
      exact hnot (List.mem_flatMap.mpr ⟨_, hmem, List.mem_singleton_self _⟩)
    simp [overlay, hbare]

namespace Channel

/-- The ray counts after an update, written one after another. -/
def countsChecked (c : Channel) (u : TileUpdate) : Option (Option (Array Binary32)) :=
  match u.sampleCounts with
  | some counts => (overlayChecked u.mask 1 c.countsOrZero counts).map some
  | none => some c.sampleCounts

/-- A merge of an update that asks for each part of a buffer first. -/
def mergeUpdateChecked (c : Channel) (u : TileUpdate) : Option (Except FrameError Channel) :=
  match u.mismatch? c.layout c.numChan with
  | some e => some (.error e)
  | none => do
    let data ← overlayChecked u.mask c.numChan c.data u.values
    let sampleCounts ← c.countsChecked u
    let mask ← (← c.mask.mergeChecked u.mask).toOption
    return .ok { c with data, sampleCounts, mask, precision := u.precision }

/-- A blend of channels that asks for each part of a buffer first. -/
def mergeWeightedChecked (c other : Channel) : Option (Except FrameError Channel) :=
  if other.layout ≠ c.layout then some (.error (.layoutMismatch c.layout.size other.layout.size))
  else if other.numChan ≠ c.numChan then some (.error (.dimensionMismatch .channelCount c.numChan other.numChan))
  else do
    let blended ← (← c.weighted.blendChecked other.weighted c.numChan).toOption
    let mask ← (← c.mask.mergeChecked other.mask).toOption
    return .ok { c with data := blended.values, sampleCounts := some blended.counts, mask }

variable {c other : Channel}

theorem Sound.countsChecked_eq (h : c.Sound) {u : TileUpdate} (hf : u.Fits c.layout c.numChan)
    (hbits : u.mask.bits.size = c.layout.capacity) :
    c.countsChecked u = some (match u.sampleCounts with
      | some counts => some (overlay u.mask 1 c.countsOrZero counts)
      | none => c.sampleCounts) := by
  rw [countsChecked]
  cases hcounts : u.sampleCounts with
  | none => rfl
  | some counts =>
    simp only
    rw [overlayChecked_eq (by rw [hf.size_counts counts hcounts, Nat.mul_one])
      (by rw [h.size_countsOrZero, hbits, Nat.mul_one])]
    rfl

theorem Sound.mergeUpdateChecked_eq (h : c.Sound) {u : TileUpdate} (hu : u.mask.Sound) :
    c.mergeUpdateChecked u = some (c.mergeUpdate u) := by
  rw [mergeUpdateChecked, Channel.mergeUpdate]
  cases hfit : u.mismatch? c.layout c.numChan with
  | some e => rfl
  | none =>
    have hf := TileUpdate.mismatch?_eq_none_iff.mp hfit
    have hbits : u.mask.bits.size = c.layout.capacity := by rw [hu.size_bits, hf.layout_eq]
    obtain ⟨mask, hmask⟩ := exists_merge (h.mask_layout.trans hf.layout_eq.symm)
    have hsize : c.data.size = u.mask.bits.size * c.numChan := by rw [h.size_data, hbits]
    have hdata := overlayChecked_eq hf.size_values hsize
    rw [h.mask.mergeChecked_eq hu, hdata, h.countsChecked_eq hf hbits, hmask]
    rfl

theorem Sound.mergeWeightedChecked_eq (h : c.Sound) (ho : other.Sound) :
    c.mergeWeightedChecked other = some (c.mergeWeighted other) := by
  rw [mergeWeightedChecked, Channel.mergeWeighted]
  split
  · rfl
  · split
    · rfl
    · rename_i hlayout hnum
      rw [ne_eq, Decidable.not_not] at hlayout hnum
      obtain ⟨hblend, mask, hmask⟩ := h.toSized.blend_eq_ok (hlayout ▸ ho.toSized) hnum
      rw [Weighted.blendChecked_eq, h.mask.mergeChecked_eq ho.mask, hblend, hmask]
      rfl

end Channel

end ProgressiveFrame
