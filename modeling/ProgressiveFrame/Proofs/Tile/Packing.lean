import ProgressiveFrame.Channel.Basic

/-!
# Packed values

An update packs the values of the slots it covers in ascending order of slots, so the values of a
slot stand at its *rank*, its place among the active slots.

* `getD_ranks`: the ranks that one pass over the bits counts are the places in `activeSlots`.
* `extract_overlay`, `getD_overlay`: what `overlay` writes. An active slot gets the values at its
  rank, every other slot keeps what it has. Nothing is asked of the mask: bits of padding slots or
  beyond the layout have ranks too. So buffers can differ afterwards only where they did and the mask
  left them alone (`getElem?_overlay_congr`).
* `slot_lt_capacity`, `pixelOf_slot`: a pixel of the image has a slot, and the slot leads back to it.
  `slot_pixelOf`: so does the pixel of any slot. `slot_lt_capacity_of_tile`, `pixelOf_slot_of_column`,
  `pixelOf_div_lt`: this needs no more of a pixel than that its tile is one of the layout.
-/

namespace ProgressiveFrame

namespace TileLayout

/-- The tile column of a pixel of the image is one of the layout's. -/
theorem div_tileEdge_lt {n x : Nat} (h : x < n) : x / tileEdge < (n + (tileEdge - 1)) / tileEdge := by
  simp only [tileEdge]
  omega

/-- A layout with a slot has a column of tiles. -/
theorem tilesX_ne_zero {l : TileLayout} {slot : Nat} (h : slot < l.capacity) : l.tilesX ≠ 0 := by
  intro hzero
  simp [capacity, tileCount, hzero] at h

/-- A pixel in a tile of the layout has a slot, in the padding, too. -/
theorem slot_lt_capacity_of_tile {l : TileLayout} {x y : Nat} (hcol : x / tileEdge < l.tilesX)
    (hrow : y / tileEdge < l.tilesY) : l.slot x y < l.capacity := by
  have htile : y / tileEdge * l.tilesX + x / tileEdge < l.tileCount := by
    have := Nat.mul_le_mul_right l.tilesX (Nat.succ_le_of_lt hrow)
    rw [Nat.succ_mul] at this
    rw [tileCount, Nat.mul_comm l.tilesX]
    omega
  have hdiv := slot_div l x y
  simp only [capacity, tileSlots, tileEdge] at *
  omega

/-- A pixel of the image has a slot. -/
theorem slot_lt_capacity {l : TileLayout} {x y : Nat} (h : l.inImage x y = true) : l.slot x y < l.capacity := by
  obtain ⟨hx, hy⟩ := inImage_iff.mp h
  exact slot_lt_capacity_of_tile (div_tileEdge_lt hx) (div_tileEdge_lt hy)

/-- The slot of a pixel in a column of tiles leads back to the pixel. -/
theorem pixelOf_slot_of_column {l : TileLayout} {x : Nat} (hlt : x / tileEdge < l.tilesX) (y : Nat) :
    l.pixelOf (l.slot x y) = (x, y) := by
  have hcol : (y / tileEdge * l.tilesX + x / tileEdge) % l.tilesX = x / tileEdge := by
    rw [Nat.mul_comm, Nat.mul_add_mod, Nat.mod_eq_of_lt hlt]
  have hrow : (y / tileEdge * l.tilesX + x / tileEdge) / l.tilesX = y / tileEdge := by
    rw [Nat.mul_comm, Nat.mul_add_div (by omega), Nat.div_eq_of_lt hlt, Nat.add_zero]
  simp only [pixelOf, slot_div, slot_mod, hcol, hrow, Prod.mk.injEq]
  simp only [tileEdge]
  omega

/-- The slot of a pixel of the image leads back to the pixel. -/
theorem pixelOf_slot {l : TileLayout} {x y : Nat} (h : l.inImage x y = true) : l.pixelOf (l.slot x y) = (x, y) :=
  pixelOf_slot_of_column (div_tileEdge_lt (inImage_iff.mp h).1) y

/-- The tile of a slot, in its column and its row. -/
theorem pixelOf_div (l : TileLayout) (slot : Nat) : (l.pixelOf slot).1 / tileEdge = slot / tileSlots % l.tilesX ∧
    (l.pixelOf slot).2 / tileEdge = slot / tileSlots / l.tilesX := by
  simp only [pixelOf, tileSlots, tileEdge]
  omega

/-- The tile of a slot is in a column and a row of the layout. -/
theorem pixelOf_div_lt {l : TileLayout} {slot : Nat} (h : slot < l.capacity) :
    (l.pixelOf slot).1 / tileEdge < l.tilesX ∧ (l.pixelOf slot).2 / tileEdge < l.tilesY := by
  have htile : slot / tileSlots < l.tilesX * l.tilesY :=
    Nat.div_lt_of_lt_mul (by rwa [Nat.mul_comm, ← tileCount, ← capacity])
  rw [(l.pixelOf_div slot).1, (l.pixelOf_div slot).2]
  exact ⟨Nat.mod_lt _ (Nat.pos_of_ne_zero (tilesX_ne_zero h)), Nat.div_lt_of_lt_mul htile⟩

/-- The pixel of a slot leads back to the slot, in the padding, too. -/
theorem slot_pixelOf (l : TileLayout) (slot : Nat) : l.slot (l.pixelOf slot).1 (l.pixelOf slot).2 = slot := by
  have hoffset : (l.pixelOf slot).1 % tileEdge = slot % tileSlots % tileEdge ∧
      (l.pixelOf slot).2 % tileEdge = slot % tileSlots / tileEdge := by
    simp only [pixelOf, tileSlots, tileEdge]
    omega
  rw [TileLayout.slot, (l.pixelOf_div slot).1, (l.pixelOf_div slot).2, hoffset.1, hoffset.2, Nat.div_add_mod',
    Nat.div_add_mod', Nat.div_add_mod']

/-- A layout has all slots of a tile or none. -/
theorem lt_capacity_of_tile {l : TileLayout} {slot offset : Nat} (hs : slot < l.capacity) (ho : offset < tileSlots) :
    slot / tileSlots * tileSlots + offset < l.capacity := by
  have htile : slot / tileSlots < l.tileCount := Nat.div_lt_of_lt_mul (by rwa [Nat.mul_comm, ← capacity])
  have hnext : (slot / tileSlots + 1) * tileSlots ≤ l.capacity := Nat.mul_le_mul_right _ htile
  rw [Nat.succ_mul] at hnext
  omega

end TileLayout

namespace PixelMask

variable {m : PixelMask} {slot : Nat}

/-- The place of a slot among the active slots. -/
def rank (m : PixelMask) (slot : Nat) : Nat := m.activeSlots.idxOf slot

theorem lt_size_of_isSlotSet (h : m.isSlotSet slot = true) : slot < m.bits.size := by
  rw [isSlotSet, Array.getD_eq_getD_getElem?] at h
  by_cases hlt : slot < m.bits.size
  · exact hlt
  · rw [Array.getElem?_eq_none (by omega)] at h
    simp at h

/-- The bits up to a slot, read through the test for one slot. -/
theorem take_bits {n : Nat} (h : n ≤ m.bits.size) :
    m.bits.toList.take n = (List.range n).map m.isSlotSet := by
  apply List.ext_getElem
  · simp [Nat.min_eq_left h]
  · intro i h₁ h₂
    have hi : i < m.bits.size := by simp at h₁; omega
    simp [isSlotSet, Array.getD_eq_getD_getElem?, hi]

theorem count_take_bits {n : Nat} (h : n ≤ m.bits.size) :
    (m.bits.toList.take n).count true = ((List.range n).filter m.isSlotSet).length := by
  rw [take_bits h, List.count_eq_countP, List.countP_map, List.countP_eq_length_filter]
  congr 1
  apply List.filter_congr
  intro i _
  simp

theorem length_activeSlots (m : PixelMask) : m.activeSlots.length = m.activeCount := by
  rw [activeSlots, ← count_take_bits (Nat.le_refl _), activeCount, ← Array.length_toList, List.take_length,
    Array.count_toList]

/-- The rank of an active slot is the number of active slots below it. -/
theorem rank_eq (h : m.isSlotSet slot = true) : m.rank slot = ((List.range slot).filter m.isSlotSet).length := by
  have hlt := lt_size_of_isSlotSet h
  obtain ⟨k, hk⟩ : ∃ k, m.bits.size = slot + (k + 1) := ⟨m.bits.size - slot - 1, by omega⟩
  have hrest : (List.range m.bits.size).filter m.isSlotSet =
      (List.range slot).filter m.isSlotSet ++ slot :: ((List.range' (slot + 1) k).filter m.isSlotSet) := by
    rw [hk, List.range_eq_range', ← List.range'_append_1, List.filter_append, ← List.range_eq_range',
      List.range'_succ, Nat.zero_add, List.filter_cons, if_pos h]
  have hnot : slot ∉ (List.range slot).filter m.isSlotSet := by simp
  rw [rank, activeSlots, hrest, List.idxOf_append, if_neg hnot, List.idxOf_cons_self, Nat.zero_add]

theorem rank_lt (h : m.isSlotSet slot = true) : m.rank slot < m.activeCount := by
  rw [← length_activeSlots]
  exact List.idxOf_lt_length_of_mem (mem_activeSlots.mpr h)

/-- One pass over bits lists, for each of them, how many bits before it are set. -/
theorem foldl_ranks (bits : List Bool) (a : Array Nat) (n : Nat) :
    bits.foldl (fun (acc : Array Nat × Nat) bit => (acc.1.push acc.2, if bit then acc.2 + 1 else acc.2)) (a, n) =
      (a ++ ((List.range bits.length).map fun i => n + (bits.take i).count true).toArray,
        n + bits.count true) := by
  induction bits generalizing a n with
  | nil => simp
  | cons bit bits ih =>
    rw [List.foldl_cons, ih, List.length_cons, List.range_succ_eq_map]
    cases bit with
    | false => simp [Function.comp_def]
    | true => simp [Function.comp_def, Nat.add_assoc, Nat.add_comm 1]

theorem ranks_eq (m : PixelMask) :
    m.ranks = ((List.range m.bits.size).map fun i => (m.bits.toList.take i).count true).toArray := by
  rw [ranks, ← Array.foldl_toList, foldl_ranks]
  simp

/-- The counted ranks are the places among the active slots. -/
theorem getD_ranks (h : m.isSlotSet slot = true) : m.ranks.getD slot 0 = m.rank slot := by
  have hlt := lt_size_of_isSlotSet h
  rw [ranks_eq, rank_eq h, ← count_take_bits (Nat.le_of_lt hlt)]
  simp [Array.getD_eq_getD_getElem?, hlt]

theorem isSlotSet_of_merge {n r : PixelMask} (h : m.merge n = .ok r) :
    r.isSlotSet slot = (m.isSlotSet slot || (n.isSlotSet slot && decide (slot < m.bits.size))) := by
  unfold merge at h
  split at h
  · cases h
    by_cases hlt : slot < m.bits.size
    · simp [isSlotSet, Array.getD_eq_getD_getElem?, hlt]
    · simp [isSlotSet, Array.getD_eq_getD_getElem?, hlt]
  · cases h

theorem size_bits_of_merge {n r : PixelMask} (h : m.merge n = .ok r) : r.bits.size = m.bits.size := by
  unfold merge at h
  split at h
  · cases h
    simp
  · cases h

end PixelMask

section Overlay

variable {mask : PixelMask} {width slot : Nat} {stored packed : Array Binary32}

/-- The slot that a value of a buffer with `width` values for each slot belongs to. -/
theorem div_of_slot {j : Nat} (h : j < width) : (slot * width + j) / width = slot := by
  rw [Nat.mul_comm, Nat.mul_add_div (by omega), Nat.div_eq_of_lt h, Nat.add_zero]

theorem mod_of_slot {j : Nat} (h : j < width) : (slot * width + j) % width = j := by
  rw [Nat.mul_comm, Nat.mul_add_mod, Nat.mod_eq_of_lt h]

/-- The packed values of an active slot. -/
def packedAt (mask : PixelMask) (width : Nat) (packed : Array Binary32) (slot : Nat) : Array Binary32 :=
  packed.extract (mask.rank slot * width) ((mask.rank slot + 1) * width)

/-- Two buffers are the same after an overlay that fits, but for slots that it leaves alone. -/
theorem getElem?_overlay_congr {stored' : Array Binary32} {k : Nat} (hp : packed.size = mask.activeCount * width)
    (hsize : stored'.size = stored.size) (hlt : k < stored.size → 0 < width)
    (hk : mask.isSlotSet (k / width) = false → stored'[k]? = stored[k]?) :
    (overlay mask width stored' packed)[k]? = (overlay mask width stored packed)[k]? := by
  simp only [overlay, Array.getElem?_mapIdx]
  cases hset : mask.isSlotSet (k / width) with
  | false => rw [hk hset]
  | true =>
    by_cases hin : k < stored.size
    · have hrank : (mask.rank (k / width) + 1) * width ≤ packed.size :=
        hp ▸ Nat.mul_le_mul_right width (PixelMask.rank_lt hset)
      have hmod : k % width < width := Nat.mod_lt k (hlt hin)
      rw [Nat.succ_mul] at hrank
      have hpacked : mask.rank (k / width) * width + k % width < packed.size := by omega
      simp [PixelMask.getD_ranks hset, Array.getD_eq_getD_getElem?, hin, hsize, hpacked]
    · simp [hin, hsize]

/-- What stands in a slot after an overlay that fits. -/
theorem extract_overlay (hp : packed.size = mask.activeCount * width) (hs : (slot + 1) * width ≤ stored.size) :
    (overlay mask width stored packed).extract (slot * width) ((slot + 1) * width) =
      if mask.isSlotSet slot then packedAt mask width packed slot
      else stored.extract (slot * width) ((slot + 1) * width) := by
  have hsucc : (slot + 1) * width = slot * width + width := Nat.succ_mul ..
  split
  · rename_i h
    have hr : (mask.rank slot + 1) * width ≤ packed.size :=
      hp ▸ Nat.mul_le_mul_right width (PixelMask.rank_lt h)
    have hrsucc : (mask.rank slot + 1) * width = mask.rank slot * width + width := Nat.succ_mul ..
    apply Array.ext
    · simp only [packedAt, Array.size_extract, size_overlay]
      omega
    · intro j h₁ _
      have hj : j < width := by simp only [Array.size_extract, size_overlay] at h₁; omega
      have hin : mask.rank slot * width + j < packed.size := by omega
      simp only [packedAt, Array.getElem_extract, overlay, Array.getElem_mapIdx, div_of_slot hj, mod_of_slot hj,
        h, if_true, PixelMask.getD_ranks h]
      simp [Array.getD_eq_getD_getElem?, hin]
  · rename_i h
    apply Array.ext
    · simp
    · intro j h₁ _
      have hj : j < width := by simp only [Array.size_extract, size_overlay] at h₁; omega
      simp [overlay, div_of_slot hj, h]

/-- The one value of a slot after an overlay that fits. -/
theorem getD_overlay (hp : packed.size = mask.activeCount) (hs : slot < stored.size) (d : Binary32) :
    (overlay mask 1 stored packed).getD slot d =
      if mask.isSlotSet slot then packed.getD (mask.rank slot) d else stored.getD slot d := by
  simp only [overlay, Array.getD_eq_getD_getElem?, Array.getElem?_mapIdx, hs, getElem?_pos, Option.map_some,
    Option.getD_some, Nat.div_one, Nat.mod_one, Nat.mul_one, Nat.add_zero]
  split
  · rename_i h
    have hin : mask.rank slot < packed.size := hp ▸ PixelMask.rank_lt h
    have hrank := PixelMask.getD_ranks h
    rw [Array.getD_eq_getD_getElem?] at hrank
    simp [hrank, hin]
  · rfl

end Overlay

end ProgressiveFrame
