import ProgressiveFrame.Proofs.Bounds.Channel

/-!
# A fill stays in its tiles

A fill goes through the tiles that its area meets. It surveys the slots of each, and where some pixels have data and
others have not, it copies values from slot to slot. The area lies in the image, so each of its tiles is one of the
layout, and a tile in which something is filled has something to fill from.

* `TileLayout.tilesIn`: the tiles that an area meets, row by row. `mem_tilesIn`: they are those of `meetsTile`.
* `TileLayout.pixelOf?_of_lt_capacity`: the slots of a layout have pixels with coordinates.
* `Channel.extrapolateChecked`: a fill that asks for each pixel, source and part of the data first.
* `Sound.extrapolateChecked_eq`: it has a result, and the result is that of `extrapolate`.
-/

namespace ProgressiveFrame

/-! ## Tiles of an area -/

namespace TileLayout

/-- The tiles that an area meets, row by row. -/
def tilesIn (l : TileLayout) (area : Viewport) : List Nat :=
  let rows := List.range' (area.minY / tileEdge).toNat (area.maxY / tileEdge + 1 - area.minY / tileEdge).toNat
  let columns := List.range' (area.minX / tileEdge).toNat (area.maxX / tileEdge + 1 - area.minX / tileEdge).toNat
  if area.isEmpty then [] else rows.flatMap fun tileY => columns.map (tileY * l.tilesX + ·)

variable {l : TileLayout} {roi : Option Viewport} {area : Viewport} {tile slot x y : Nat}

/-- The tiles that meet the area of a readout are in the rows and columns of the layout. -/
theorem lt_of_meetsTile (ha : l.area? roi = some area) {tileX tileY : Nat} (h : area.meetsTile tileX tileY = true) :
    tileX < l.tilesX ∧ tileY < l.tilesY := by
  obtain ⟨hx₀, hx₁, hy₀, hy₁⟩ := area?_within ha
  simp only [Viewport.meetsTile, Bool.and_eq_true, decide_eq_true_eq] at h
  simp only [tilesX, tilesY, tileEdge] at h ⊢
  omega

/-- The tiles that the area of a readout meets. -/
theorem mem_tilesIn (ha : l.area? roi = some area) : tile ∈ l.tilesIn area ↔
    area.isEmpty = false ∧ area.meetsTile (tile % l.tilesX) (tile / l.tilesX) = true := by
  obtain ⟨hx, -, hy, -⟩ := area?_within ha
  unfold tilesIn
  cases area.isEmpty with
  | true => simp
  | false =>
    simp only [Bool.false_eq_true, if_false, List.mem_flatMap, List.mem_map, List.mem_range'_1, true_and]
    constructor
    · rintro ⟨tileY, hrow, tileX, hcolumn, rfl⟩
      have hmeets : area.meetsTile tileX tileY = true := by
        simp only [Viewport.meetsTile, Bool.and_eq_true, decide_eq_true_eq]
        simp only [tileEdge] at *
        omega
      have hlt := (lt_of_meetsTile ha hmeets).1
      rwa [mod_of_slot hlt, div_of_slot hlt]
    · intro hmeets
      simp only [Viewport.meetsTile, Bool.and_eq_true, decide_eq_true_eq] at hmeets
      refine ⟨tile / l.tilesX, ?_, tile % l.tilesX, ?_, Nat.div_add_mod' ..⟩
      all_goals
        simp only [tileEdge] at *
        omega

/-- The tiles that the area of a readout meets are tiles of the layout. -/
theorem lt_tileCount_of_mem_tilesIn (ha : l.area? roi = some area) (h : tile ∈ l.tilesIn area) :
    tile < l.tileCount := by
  obtain ⟨hcolumn, hrow⟩ := lt_of_meetsTile ha ((mem_tilesIn ha).mp h).2
  rw [tileCount, Nat.mul_comm]
  exact (Nat.div_lt_iff_lt_mul (Nat.zero_lt_of_lt hcolumn)).mp hrow

/-- An image with a pixel has no area that is empty. -/
theorem isEmpty_of_area? (hw : l.width < 0x80000000) (hh : l.height < 0x80000000) (ha : l.area? roi = some area)
    (hin : l.inImage x y = true) : area.isEmpty = false := by
  obtain ⟨hx, hy⟩ := inImage_iff.mp hin
  cases roi with
  | none =>
    cases ha
    rw [Bool.eq_false_iff, ne_eq, Viewport.isEmpty_iff, bounds, Viewport.ofSize_of_lt hw hh]
    simp only
    omega
  | some roi =>
    simp only [area?, Viewport.intersect?] at ha
    split at ha
    · cases ha
    · cases ha
      rename_i hsome
      rwa [Bool.not_eq_true] at hsome

/-- Whether a slot is a pixel of the image. -/
def isPixel (l : TileLayout) (slot : Nat) : Bool := l.inImage (l.pixelOf slot).1 (l.pixelOf slot).2

/-- The slots of a layout have pixels with coordinates. -/
theorem pixelOf?_of_lt_capacity (hh : l.height < coordinateLimit) (hslot : slot < l.capacity) :
    l.pixelOf? slot = some (l.pixelOf slot) := by
  have hrow := (pixelOf_div_lt hslot).2
  refine pixelOf?_of_lt (tilesX_ne_zero hslot) ?_
  simp only [tilesY, tileEdge] at hrow
  simp only [coordinateLimit] at hh ⊢
  omega

end TileLayout

/-! ## Fills that ask first -/

namespace Channel

/-- The slots of a tile. -/
def slotsOfTile (tile : Nat) : List Nat := (List.range tileSlots).map (tile * tileSlots + ·)

/-- A slot is listed if it has data, and counted if it is a pixel of the image. -/
def surveySlot (c : Channel) (found : List Nat × Nat) (slot : Nat) : Option (List Nat × Nat) := do
  let (x, y) ← c.layout.pixelOf? slot
  if !c.layout.inImage x y then return found
  return (if c.mask.isSlotSet slot then found.1 ++ [slot] else found.1, found.2 + 1)

/-- A pixel without data gets the values of the nearest one with data. -/
def fillSlot (c : Channel) (covered : List Nat) (data : Array Binary32) (slot : Nat) : Option (Array Binary32) := do
  let (x, y) ← c.layout.pixelOf? slot
  if !c.layout.inImage x y || c.mask.isSlotSet slot then return data
  let source ← c.layout.nearest? (x, y) covered
  let values ← slice? data (source * c.numChan) ((source + 1) * c.numChan)
  writeSlice? data (slot * c.numChan) ((slot + 1) * c.numChan) values

/-- A tile is filled if some of its pixels have data and others have not. -/
def fillTile (c : Channel) (data : Array Binary32) (tile : Nat) : Option (Array Binary32) := do
  let (covered, pixels) ← (slotsOfTile tile).foldlM c.surveySlot ([], 0)
  if covered.isEmpty || covered.length == pixels then return data
  (slotsOfTile tile).foldlM (c.fillSlot covered) data

/-- A fill that asks for each pixel, source and part of the data first. -/
def extrapolateChecked (c : Channel) (roi : Option Viewport) : Option Channel :=
  match c.layout.area? roi with
  | none => some c
  | some area => do
    let data ← (c.layout.tilesIn area).foldlM c.fillTile c.data
    return { c with data }

variable {c : Channel} {roi : Option Viewport} {area : Viewport} {tile slot : Nat} {done : List Nat}

theorem mem_slotsOfTile : slot ∈ slotsOfTile tile ↔ slot / tileSlots = tile := by
  simp only [slotsOfTile, List.mem_map, List.mem_range, tileSlots, tileEdge]
  constructor
  · rintro ⟨offset, hoffset, rfl⟩
    omega
  · rintro rfl
    exact ⟨slot % 64, by omega, by omega⟩

theorem lt_capacity_of_mem_slotsOfTile (htile : tile < c.layout.tileCount) (h : slot ∈ slotsOfTile tile) :
    slot < c.layout.capacity := by
  have hdiv := mem_slotsOfTile.mp h
  simp only [TileLayout.capacity, tileSlots, tileEdge] at hdiv ⊢
  omega

/-- The slots of a channel have pixels with coordinates. -/
theorem Sound.pixelOf?_eq (h : c.Sound) (hslot : slot < c.layout.capacity) :
    c.layout.pixelOf? slot = some (c.layout.pixelOf slot) :=
  TileLayout.pixelOf?_of_lt_capacity (Nat.lt_trans h.height (by decide)) hslot

/-- A survey of slots of the layout finds those with data, and how many are pixels of the image. -/
theorem Sound.survey_eq (h : c.Sound) {slots : List Nat} (hslots : ∀ slot ∈ slots, slot < c.layout.capacity) :
    slots.foldlM c.surveySlot ([], 0) = some (slots.filter c.isCovered, slots.countP c.layout.isPixel) := by
  refine foldlM_prefix (fun pre => (pre.filter c.isCovered, pre.countP c.layout.isPixel))
    fun pre slot post hsplit => ?_
  have hslot : slot < c.layout.capacity := hslots slot (by rw [hsplit]; simp)
  rw [surveySlot, h.pixelOf?_eq hslot]
  cases hin : c.layout.inImage (c.layout.pixelOf slot).1 (c.layout.pixelOf slot).2 <;>
    cases hset : c.mask.isSlotSet slot <;> simp [isCovered, TileLayout.isPixel, hin, hset]

/-- A tile without data, and a tile of which all pixels have data, have no gaps. -/
theorem not_isGap_of_survey
    (hall : (c.coveredSlots tile).isEmpty = true ∨
      (c.coveredSlots tile).length = (slotsOfTile tile).countP c.layout.isPixel)
    (hslot : slot ∈ slotsOfTile tile) : ¬ c.IsGap slot := by
  intro hgap
  rcases hall with hnone | hsame
  · have hcovered := hgap.covered
    rw [mem_slotsOfTile.mp hslot] at hcovered
    exact hcovered (List.isEmpty_iff.mp hnone)
  · have hsplit : c.coveredSlots tile = ((slotsOfTile tile).filter c.layout.isPixel).filter c.mask.isSlotSet := by
      rw [List.filter_filter]
      exact List.filter_congr fun slot _ => Bool.and_comm ..
    rw [hsplit, List.countP_eq_length_filter, List.length_filter_eq_length_iff] at hsame
    have hset := hsame slot (List.mem_filter.mpr ⟨hslot, hgap.inImage⟩)
    rw [hgap.bare] at hset
    cases hset

/-- The data have values for each slot before a fill and after it. -/
theorem Sound.slotted_extrapolate (h : c.Sound) (roi : Option Viewport) :
    Slotted c.numChan c.layout.capacity c.data (c.extrapolate roi).data :=
  ⟨h.size_data, (size_data_extrapolate c roi).trans h.size_data⟩

/-- A slot with data is as it was, whether or not it is done. -/
theorem Sound.extract_of_isCovered (h : c.Sound) {source : Nat} (hlt : source < c.layout.capacity)
    (hcovered : c.isCovered source = true) :
    (if source ∈ done then (c.extrapolate roi).data else c.data).extract (source * c.numChan)
      ((source + 1) * c.numChan) = c.data.extract (source * c.numChan) ((source + 1) * c.numChan) := by
  have hle := (slot_le_size c.numChan hlt).2
  split
  · refine (eq_extract_slot ((h.slotted_extrapolate roi).after ▸ hle) (size_extract_slot (h.size_data ▸ hle))
      fun j hj => ?_).symm
    have hkept : ¬ c.IsGap ((source * c.numChan + j) / c.numChan) := by
      rw [div_of_slot hj]
      exact not_isGap_of_isCovered hcovered
    rw [getElem?_extract_slot (h.size_data ▸ hle) hj, getElem?_extrapolate_of_not_isGap hkept]
  · rfl

/-- A gap in a tile of the area gets what its source holds, whichever slots are done. -/
theorem Sound.fillSlot_of_isGap (h : c.Sound) (ha : c.layout.area? roi = some area) (hlt : slot < c.layout.capacity)
    (hm : area.meetsTile ((c.layout.pixelOf slot).1 / tileEdge) ((c.layout.pixelOf slot).2 / tileEdge) = true)
    (hgap : c.IsGap slot) :
    c.fillSlot (c.coveredSlots (slot / tileSlots)) (patched c.numChan c.data (c.extrapolate roi).data done) slot =
      some (patched c.numChan c.data (c.extrapolate roi).data (done ++ [slot])) := by
  have hslotted := h.slotted_extrapolate roi
  obtain ⟨source, hsource⟩ := exists_fillSource? hgap hm
  have hmem := (fillSource?_isGap hsource).2
  have hnearest : c.layout.nearest? (c.layout.pixelOf slot) (c.coveredSlots (slot / tileSlots)) = some source := by
    rwa [fillSource?_eq, if_pos hm, hgap.supplier?_eq] at hsource
  have hslt := lt_capacity_of_mem_coveredSlots hlt hmem
  have hle : (source + 1) * c.numChan ≤ c.data.size := h.size_data ▸ (slot_le_size _ hslt).2
  have hvalues : c.data.extract (source * c.numChan) ((source + 1) * c.numChan) =
      (c.extrapolate roi).data.extract (slot * c.numChan) ((slot + 1) * c.numChan) := by
    refine eq_extract_slot (hslotted.after ▸ (slot_le_size _ hlt).2) (size_extract_slot hle) fun j hj => ?_
    rw [getElem?_extract_slot hle hj, getElem?_extrapolate_of_source h.toSized ha hlt hsource hj]
  simp only [fillSlot, h.pixelOf?_eq hlt, Option.bind_eq_bind, Option.bind_some, hgap.inImage, hgap.bare,
    Bool.not_true, Bool.or_self, Bool.false_eq_true, if_false, hnearest,
    hslotted.slice?_patched hslt, h.extract_of_isCovered hslt (isCovered_of_mem_coveredSlots hmem)]
  exact hslotted.writeSlice?_patched done hlt hvalues

/-- What is not a gap is left as it is. -/
theorem Sound.fillSlot_of_not_isGap (h : c.Sound) (hlt : slot < c.layout.capacity)
    (hcovered : c.coveredSlots (slot / tileSlots) ≠ []) (hgap : ¬ c.IsGap slot) (data : Array Binary32) :
    c.fillSlot (c.coveredSlots (slot / tileSlots)) data slot = some data := by
  have hskip : (!c.layout.inImage (c.layout.pixelOf slot).1 (c.layout.pixelOf slot).2 ||
      c.mask.isSlotSet slot) = true := by
    by_contra hnot
    simp only [Bool.or_eq_true, Bool.not_eq_true', not_or, Bool.not_eq_false, Bool.not_eq_true] at hnot
    exact hgap ⟨hnot.1, hnot.2, hcovered⟩
  simp only [fillSlot, h.pixelOf?_eq hlt, Option.bind_eq_bind, Option.bind_some, hskip, if_true]
  rfl

/-- The step of one slot leaves the slot as the fill does. -/
theorem Sound.fillSlot_patched (h : c.Sound) (ha : c.layout.area? roi = some area)
    (htile : tile ∈ c.layout.tilesIn area) (hcovered : c.coveredSlots tile ≠ []) (hslot : slot ∈ slotsOfTile tile) :
    c.fillSlot (c.coveredSlots tile) (patched c.numChan c.data (c.extrapolate roi).data done) slot =
      some (patched c.numChan c.data (c.extrapolate roi).data (done ++ [slot])) := by
  have hlt := lt_capacity_of_mem_slotsOfTile (TileLayout.lt_tileCount_of_mem_tilesIn ha htile) hslot
  have hmeets := ((TileLayout.mem_tilesIn ha).mp htile).2
  have hdiv := mem_slotsOfTile.mp hslot
  subst hdiv
  rw [← (TileLayout.pixelOf_div ..).1, ← (TileLayout.pixelOf_div ..).2] at hmeets
  by_cases hgap : c.IsGap slot
  · exact h.fillSlot_of_isGap ha hlt hmeets hgap
  · have hsame (k : Nat) (hk : k / c.numChan ∈ [slot]) : (c.extrapolate roi).data[k]? = c.data[k]? :=
      getElem?_extrapolate_of_not_isGap ((List.mem_singleton.mp hk).symm ▸ hgap)
    rw [h.fillSlot_of_not_isGap hlt hcovered hgap, (h.slotted_extrapolate roi).patched_append hsame]

/-- The step of one tile leaves the tile as the fill does. -/
theorem Sound.fillTile_patched (h : c.Sound) (ha : c.layout.area? roi = some area)
    (htile : tile ∈ c.layout.tilesIn area) :
    c.fillTile (patched c.numChan c.data (c.extrapolate roi).data done) tile =
      some (patched c.numChan c.data (c.extrapolate roi).data (done ++ slotsOfTile tile)) := by
  have hlt (slot : Nat) (hslot : slot ∈ slotsOfTile tile) : slot < c.layout.capacity :=
    lt_capacity_of_mem_slotsOfTile (TileLayout.lt_tileCount_of_mem_tilesIn ha htile) hslot
  rw [fillTile, h.survey_eq hlt, Option.bind_eq_bind, Option.bind_some]
  simp only
  split
  · rename_i hskip
    rw [Bool.or_eq_true, beq_iff_eq] at hskip
    rw [(h.slotted_extrapolate roi).patched_append fun k hk =>
      getElem?_extrapolate_of_not_isGap (not_isGap_of_survey hskip hk)]
    rfl
  · rename_i hfill
    have hcovered : c.coveredSlots tile ≠ [] := fun hnil =>
      hfill (Bool.or_eq_true_iff.mpr (.inl (List.isEmpty_iff.mpr hnil)))
    have hrun : (slotsOfTile tile).foldlM (c.fillSlot (c.coveredSlots tile))
        (patched c.numChan c.data (c.extrapolate roi).data done) = some (patched c.numChan c.data
          (c.extrapolate roi).data (done ++ (slotsOfTile tile).flatMap fun slot => [slot])) :=
      foldlM_patched (fun slot => [slot]) fun pre slot post hsplit =>
        h.fillSlot_patched ha htile hcovered (by rw [hsplit]; simp)
    rwa [List.flatMap_singleton'] at hrun

/-- A tile that the area does not meet is left as it is. -/
theorem Sound.getElem?_extrapolate_of_not_mem (h : c.Sound) (ha : c.layout.area? roi = some area) {k : Nat}
    (hlt : k / c.numChan < c.layout.capacity) (hnot : k / c.numChan / tileSlots ∉ c.layout.tilesIn area) :
    (c.extrapolate roi).data[k]? = c.data[k]? := by
  have hnone : c.fillSource? area (k / c.numChan) = none := by
    refine Option.eq_none_iff_forall_ne_some.mpr fun source hsource => hnot ((TileLayout.mem_tilesIn ha).mpr ?_)
    have hempty := TileLayout.isEmpty_of_area? h.width h.height ha (fillSource?_isGap hsource).1.inImage
    rw [fillSource?_eq] at hsource
    split at hsource
    · rename_i hmeets
      rw [(TileLayout.pixelOf_div ..).1, (TileLayout.pixelOf_div ..).2] at hmeets
      exact ⟨hempty, hmeets⟩
    · cases hsource
  simp only [getElem?_extrapolate ha, getD_fillSources, if_pos hlt, hnone, Option.map_id']

/-- A fill never asks for what is not there. -/
theorem Sound.extrapolateChecked_eq (h : c.Sound) (roi : Option Viewport) :
    c.extrapolateChecked roi = some (c.extrapolate roi) := by
  rw [extrapolateChecked]
  cases ha : c.layout.area? roi with
  | none => simp only [Channel.extrapolate, ha]
  | some area =>
    have hloop : (c.layout.tilesIn area).foldlM c.fillTile c.data = some (c.extrapolate roi).data := by
      refine (h.slotted_extrapolate roi).foldlM_eq slotsOfTile (fun pre tile post hsplit => ?_)
        fun k hk hnot => ?_
      · exact h.fillTile_patched ha (by rw [hsplit]; simp)
      · exact h.getElem?_extrapolate_of_not_mem ha hk fun hmem =>
          hnot (List.mem_flatMap.mpr ⟨_, hmem, mem_slotsOfTile.mpr rfl⟩)
    rw [extrapolate_eq]
    simp only [hloop]
    rfl

end Channel

end ProgressiveFrame
