import Mathlib.Data.List.Induction
import ProgressiveFrame.Channel.Readout
import ProgressiveFrame.Proofs.Channel.History

/-!
# What a fill leaves behind

A fill writes over pixels without data in tiles that have some (`Channel.IsGap`), and the next fill finds
the same pixels with data. So what it leaves behind is never seen by a readout that fills first.

* `Channel.supplier?`: the slot that a gap takes values over from. `fillSource?_isGap`, `exists_fillSource?`: which
  slots take over values, and from where.
* `getElem?_extrapolate_of_not_isGap`: a fill changes gaps and nothing else.
* `Channel.Resembles`: a channel that differs from another one in gaps at most. A fill of either of them
  keeps the resemblance, and so does a merge into both (`Resembles.extrapolate_right`, `mergeUpdate`). A
  reset that keeps values does not: it opens every slot.
* `Resembles.untile_extrapolate`: two channels that resemble each other are the same once filled, in the
  area that is read out.
-/

namespace ProgressiveFrame

/-! ## The area of a readout -/

namespace TileLayout

variable {l : TileLayout} {p : Nat × Nat} {slots : List Nat} {slot : Nat}

/-- The area of a readout lies in the image. -/
theorem area?_within {roi : Option Viewport} {area : Viewport} (h : l.area? roi = some area) :
    0 ≤ area.minX ∧ area.maxX < l.width ∧ 0 ≤ area.minY ∧ area.maxY < l.height := by
  have hsigned (n : Nat) : signedWord n ≤ n := by
    unfold signedWord
    split <;> omega
  have hw := hsigned l.width
  have hh := hsigned l.height
  cases roi with
  | none =>
    cases h
    simp only [bounds, Viewport.ofSize]
    omega
  | some roi =>
    simp only [area?, Viewport.intersect?] at h
    split at h
    · cases h
    · cases h
      simp only [Viewport.common, bounds, Viewport.ofSize]
      omega

/-- The last slot of a list is nearest only if it is nearer than what was found before it. -/
theorem nearest?_concat (l : TileLayout) (p : Nat × Nat) (slots : List Nat) (slot : Nat) :
    l.nearest? p (slots ++ [slot]) = match l.nearest? p slots with
      | none => some slot
      | some b =>
        if squaredDistance (l.pixelOf slot) p < squaredDistance (l.pixelOf b) p then some slot else some b := by
  rw [nearest?, List.foldl_append]
  rfl

/-- The nearest slot of a list is one of the list. -/
theorem nearest?_mem (h : l.nearest? p slots = some slot) : slot ∈ slots := by
  induction slots using List.reverseRecOn with
  | nil => cases h
  | append_singleton slots last ih =>
    rw [nearest?_concat] at h
    rw [List.mem_append, List.mem_singleton]
    cases hbest : l.nearest? p slots with
    | none =>
      rw [hbest] at h
      exact .inr (Option.some.inj h).symm
    | some best =>
      rw [hbest] at h ih
      simp only at h
      split at h
      · exact .inr (Option.some.inj h).symm
      · exact .inl (ih h)

/-- A list that is not empty has a nearest slot. -/
theorem exists_nearest? (l : TileLayout) (p : Nat × Nat) (h : slots ≠ []) : ∃ slot, l.nearest? p slots = some slot := by
  rw [← List.dropLast_concat_getLast h, nearest?_concat]
  cases l.nearest? p slots.dropLast with
  | none => exact ⟨_, rfl⟩
  | some best =>
    simp only
    split <;> exact ⟨_, rfl⟩

end TileLayout

namespace Viewport

/-- The pixel that value `k` of a readout shows, with `count` values for each pixel. -/
def pixelAt (area : Viewport) (o : Orientation) (count k : Nat) : Nat × Nat :=
  ((area.minX + (k / count % area.width : Nat)).toNat, (o.line area (k / count / area.width)).toNat)

/-- The pixels that a readout shows are those of its area. -/
theorem contains_pixelAt {area : Viewport} (o : Orientation) {count k : Nat} (hx : 0 ≤ area.minX) (hy : 0 ≤ area.minY)
    (hk : k < area.width * area.height * count) :
    area.contains (area.pixelAt o count k).1 (area.pixelAt o count k).2 = true := by
  have hpixel : k / count < area.width * area.height := Nat.div_lt_of_lt_mul (by rwa [Nat.mul_comm] at hk)
  have hpos : 0 < area.width := Nat.pos_of_ne_zero fun h0 => by simp [h0] at hpixel
  have hcol : k / count % area.width < area.width := Nat.mod_lt _ hpos
  have hrow : k / count / area.width < area.height := Nat.div_lt_of_lt_mul hpixel
  rw [contains_iff, pixelAt]
  generalize k / count % area.width = column, k / count / area.width = row at hcol hrow ⊢
  simp only [width, height] at hcol hrow
  cases o with
  | bottomUp => simp only [Orientation.line]; omega
  | topDown => simp only [Orientation.line]; omega

/-- The pixels that a readout shows are in the image. -/
theorem inImage_pixelAt {layout : TileLayout} {roi : Option Viewport} {area : Viewport}
    (ha : layout.area? roi = some area) (o : Orientation) {count k : Nat} (hk : k < area.width * area.height * count) :
    layout.inImage (area.pixelAt o count k).1 (area.pixelAt o count k).2 = true := by
  obtain ⟨hx₀, hx₁, hy₀, hy₁⟩ := TileLayout.area?_within ha
  have hxy := contains_iff.mp (contains_pixelAt o hx₀ hy₀ hk)
  rw [TileLayout.inImage_iff]
  omega

/-- The tile of a pixel of an area meets the area. -/
theorem meetsTile_of_contains {area : Viewport} {x y : Nat} (h : area.contains x y = true) :
    area.meetsTile (x / tileEdge) (y / tileEdge) = true := by
  rw [contains_iff] at h
  simp only [meetsTile, Bool.and_eq_true, decide_eq_true_eq]
  simp only [tileEdge]
  omega

end Viewport

namespace Channel

variable {c c' : Channel} {layout : TileLayout} {roi : Option Viewport} {area : Viewport} {slot source : Nat}

theorem readValue_eq (c : Channel) (o : Orientation) (area : Viewport) (first count k : Nat) :
    c.readValue o area first count k =
      c.data.getD (c.layout.slot (area.pixelAt o count k).1 (area.pixelAt o count k).2 * c.numChan + first + k % count)
        .zero := rfl

/-- A readout shows none but the values of its pixels. -/
theorem value_lt_numChan {numChan pixels first last k : Nat}
    (hk : k < pixels * (min last numChan - min first numChan)) :
    min first numChan + k % (min last numChan - min first numChan) < numChan := by
  have hcount : 0 < min last numChan - min first numChan := Nat.pos_of_ne_zero fun h0 => by simp [h0] at hk
  have := Nat.mod_lt k hcount
  omega

/-- A value of a pixel of the image. -/
theorem getElem?_pixel? (hs : c.Sized layout) {x y j : Nat} (hin : layout.inImage x y = true) (hj : j < c.numChan) :
    (c.pixel? x y).bind (·[j]?) = c.data[layout.slot x y * c.numChan + j]? := by
  have hle := hs.slot_le (TileLayout.slot_lt_capacity hin)
  rw [Nat.succ_mul] at hle
  rw [pixel?, hs.layout_eq, if_pos hin, Option.bind_some, slotValues, Nat.succ_mul, Array.getElem?_extract,
    if_pos (by omega)]

/-- Value `k` of a readout is a value of the pixel that it shows. -/
theorem getElem?_untile (hs : c.Sized layout) (ha : layout.area? roi = some area) (o : Orientation)
    {first last count k : Nat} (hcount : min last c.numChan - min first c.numChan = count)
    (hk : k < area.width * area.height * count) :
    (c.untile o roi first last).data[k]? =
      (c.pixel? (area.pixelAt o count k).1 (area.pixelAt o count k).2).bind (·[min first c.numChan + k % count]?) := by
  subst hcount
  have hin := Viewport.inImage_pixelAt ha o hk
  have hj := value_lt_numChan hk
  have hlt := hs.value_lt (TileLayout.slot_lt_capacity hin) hj
  rw [getElem?_pixel? hs hin hj]
  simp only [untile, hs.layout_eq, ha]
  rw [Array.getElem?_map, Array.getElem?_range, if_pos hk, Option.map_some, readValue_eq, hs.layout_eq, Nat.add_assoc,
    Array.getD_eq_getD_getElem?, Array.getElem?_eq_getElem hlt, Option.getD_some]

/-! ## Gaps -/

/-- The slot is a pixel without data in a tile that has some. -/
structure IsGap (c : Channel) (slot : Nat) : Prop where
  inImage : c.layout.inImage (c.layout.pixelOf slot).1 (c.layout.pixelOf slot).2 = true
  bare : c.mask.isSlotSet slot = false
  /-- There is something to take over. -/
  covered : c.coveredSlots (slot / tileSlots) ≠ []

theorem not_isGap_of_isCovered (h : c.isCovered slot = true) : ¬ c.IsGap slot := by
  intro hg
  simp only [isCovered, hg.bare, Bool.and_false] at h
  cases h

theorem isCovered_of_mem_coveredSlots {tile : Nat} (h : source ∈ c.coveredSlots tile) : c.isCovered source = true :=
  (List.mem_filter.mp h).2

/-- The slots of a tile with data have places in the layout when the tile has. -/
theorem lt_capacity_of_mem_coveredSlots (hs : slot < c.layout.capacity)
    (h : source ∈ c.coveredSlots (slot / tileSlots)) : source < c.layout.capacity := by
  obtain ⟨offset, ho, rfl⟩ := List.mem_map.mp (List.mem_filter.mp h).1
  exact TileLayout.lt_capacity_of_tile hs (List.mem_range.mp ho)

/-- The slot that a pixel without data takes values over from when its tile is filled. -/
def supplier? (c : Channel) (slot : Nat) : Option Nat :=
  let p := c.layout.pixelOf slot
  if c.layout.inImage p.1 p.2 && !c.mask.isSlotSet slot then c.layout.nearest? p (c.coveredSlots (slot / tileSlots))
  else none

theorem fillSource?_eq (c : Channel) (area : Viewport) (slot : Nat) : c.fillSource? area slot =
    if area.meetsTile ((c.layout.pixelOf slot).1 / tileEdge) ((c.layout.pixelOf slot).2 / tileEdge) then
      c.supplier? slot else none := by
  rw [fillSource?, supplier?]
  cases area.meetsTile ((c.layout.pixelOf slot).1 / tileEdge) ((c.layout.pixelOf slot).2 / tileEdge) <;> simp

/-- What takes over values is a gap, and it takes them from a slot with data in its tile. -/
theorem supplier?_isGap (h : c.supplier? slot = some source) :
    c.IsGap slot ∧ source ∈ c.coveredSlots (slot / tileSlots) := by
  simp only [supplier?] at h
  split at h
  · rename_i hcond
    simp only [Bool.and_eq_true, Bool.not_eq_true'] at hcond
    have hmem := TileLayout.nearest?_mem h
    exact ⟨⟨hcond.1, hcond.2, List.ne_nil_of_mem hmem⟩, hmem⟩
  · cases h

theorem fillSource?_isGap (h : c.fillSource? area slot = some source) :
    c.IsGap slot ∧ source ∈ c.coveredSlots (slot / tileSlots) := by
  rw [fillSource?_eq] at h
  split at h
  · exact supplier?_isGap h
  · cases h

theorem IsGap.supplier?_eq (h : c.IsGap slot) :
    c.supplier? slot = c.layout.nearest? (c.layout.pixelOf slot) (c.coveredSlots (slot / tileSlots)) := by
  simp only [supplier?, h.inImage, h.bare, Bool.not_false, Bool.and_self, if_true]

/-- Every gap has something to take over. -/
theorem IsGap.exists_supplier? (h : c.IsGap slot) : ∃ source, c.supplier? slot = some source := by
  rw [h.supplier?_eq]
  exact c.layout.exists_nearest? _ h.covered

/-- Every gap in a tile that meets the area takes over values. -/
theorem exists_fillSource? (hg : c.IsGap slot)
    (hm : area.meetsTile ((c.layout.pixelOf slot).1 / tileEdge) ((c.layout.pixelOf slot).2 / tileEdge) = true) :
    ∃ source, c.fillSource? area slot = some source := by
  rw [fillSource?_eq, if_pos hm]
  exact hg.exists_supplier?

/-! ## The values after a fill -/

@[simp] theorem layout_extrapolate (c : Channel) (roi : Option Viewport) : (c.extrapolate roi).layout = c.layout := by
  unfold extrapolate; split <;> rfl

@[simp] theorem numChan_extrapolate (c : Channel) (roi : Option Viewport) :
    (c.extrapolate roi).numChan = c.numChan := by
  unfold extrapolate; split <;> rfl

/-- A fill changes nothing but values. -/
theorem extrapolate_eq (c : Channel) (roi : Option Viewport) :
    c.extrapolate roi = { c with data := (c.extrapolate roi).data } := by
  unfold extrapolate; split <;> rfl

theorem getElem?_extrapolate (ha : c.layout.area? roi = some area) (k : Nat) :
    (c.extrapolate roi).data[k]? = c.data[k]?.map fun value =>
      match ((Array.range c.layout.capacity).map (c.fillSource? area)).getD (k / c.numChan) none with
      | some source => c.data.getD (source * c.numChan + k % c.numChan) value
      | none => value := by
  simp only [extrapolate, ha]
  exact Array.getElem?_mapIdx

theorem getD_fillSources (c : Channel) (area : Viewport) (slot : Nat) :
    ((Array.range c.layout.capacity).map (c.fillSource? area)).getD slot none =
      if slot < c.layout.capacity then c.fillSource? area slot else none := by
  rw [Array.getD_eq_getD_getElem?]
  split
  · rename_i h
    simp [h]
  · rename_i h
    simp [h]

/-- A fill changes gaps and nothing else. -/
theorem getElem?_extrapolate_of_not_isGap {k : Nat} (hg : ¬ c.IsGap (k / c.numChan)) :
    (c.extrapolate roi).data[k]? = c.data[k]? := by
  cases ha : c.layout.area? roi with
  | none => simp only [extrapolate, ha]
  | some area =>
    have hnone : c.fillSource? area (k / c.numChan) = none :=
      Option.eq_none_iff_forall_ne_some.mpr fun source hs => hg (fillSource?_isGap hs).1
    simp only [getElem?_extrapolate ha, getD_fillSources, hnone, ite_self, Option.map_id']

/-- A gap in the area gets what its source holds. -/
theorem getElem?_extrapolate_of_source (hs : c.Sized layout) (ha : layout.area? roi = some area)
    (hlt : slot < layout.capacity) (hf : c.fillSource? area slot = some source) {j : Nat} (hj : j < c.numChan) :
    (c.extrapolate roi).data[slot * c.numChan + j]? = c.data[source * c.numChan + j]? := by
  have hsource : source < layout.capacity := by
    rw [← hs.layout_eq] at hlt ⊢
    exact lt_capacity_of_mem_coveredSlots hlt (fillSource?_isGap hf).2
  have hlt' : slot < c.layout.capacity := hs.layout_eq ▸ hlt
  rw [getElem?_extrapolate (hs.layout_eq ▸ ha), div_of_slot hj, mod_of_slot hj, getD_fillSources, if_pos hlt', hf]
  simp [Array.getD_eq_getD_getElem?, hs.value_lt hlt hj, hs.value_lt hsource hj]

/-! ## Resemblance -/

/-- The second channel differs from the first one at most in values, and where that is `watched` only in the
values of gaps. -/
structure Resembles (watched : Bool) (c c' : Channel) : Prop where
  eq_with_data : c' = { c with data := c'.data }
  size_data : c'.data.size = c.data.size
  values : watched = true → ∀ k, ¬ c.IsGap (k / c.numChan) → c'.data[k]? = c.data[k]?

theorem Resembles.refl (watched : Bool) (c : Channel) : c.Resembles watched c := ⟨rfl, rfl, fun _ _ _ => rfl⟩

/-- Gaps are told from coverage. -/
theorem isGap_congr {data : Array Binary32} : ({ c with data } : Channel).IsGap slot ↔ c.IsGap slot :=
  ⟨fun h => ⟨h.inImage, h.bare, h.covered⟩, fun h => ⟨h.inImage, h.bare, h.covered⟩⟩

section Resembles

variable {watched : Bool} {u : TileUpdate}

theorem Resembles.extrapolate_right (h : c.Resembles watched c') (roi : Option Viewport) :
    c.Resembles watched (c'.extrapolate roi) := by
  obtain ⟨data, rfl⟩ : ∃ data, c' = { c with data } := ⟨_, h.eq_with_data⟩
  refine ⟨extrapolate_eq _ roi, (size_data_extrapolate _ roi).trans h.size_data, fun hw k hk => ?_⟩
  rw [getElem?_extrapolate_of_not_isGap (c := { c with data }) (mt isGap_congr.mp hk)]
  exact h.values hw k hk

theorem Resembles.symm (h : c.Resembles watched c') : c'.Resembles watched c := by
  obtain ⟨data, rfl⟩ : ∃ data, c' = { c with data } := ⟨_, h.eq_with_data⟩
  exact ⟨rfl, h.size_data.symm, fun hw k hk => (h.values hw k (mt isGap_congr.mpr hk)).symm⟩

theorem Resembles.sized (h : c.Resembles watched c') (hs : c.Sized layout) : c'.Sized layout := by
  obtain ⟨data, rfl⟩ : ∃ data, c' = { c with data } := ⟨_, h.eq_with_data⟩
  exact { hs with size_data := h.size_data.trans hs.size_data }

/-- Coverage only grows in a merge, so a gap that the update does not cover stays one. -/
theorem IsGap.of_merge {data : Array Binary32} {sampleCounts : Option (Array Binary32)} {mask : PixelMask}
    {precision : PassPrecision} (hg : c.IsGap slot) (hm : c.mask.merge u.mask = .ok mask)
    (hu : u.mask.isSlotSet slot = false) :
    ({ c with data, sampleCounts, mask, precision } : Channel).IsGap slot where
  inImage := hg.inImage
  bare := by rw [PixelMask.isSlotSet_of_merge hm, hg.bare, hu]; rfl
  covered := by
    obtain ⟨source, hmem⟩ := List.exists_mem_of_ne_nil _ hg.covered
    refine List.ne_nil_of_mem (a := source) ?_
    simp only [coveredSlots, List.mem_filter, isCovered, PixelMask.isSlotSet_of_merge hm, Bool.and_eq_true] at hmem ⊢
    exact ⟨hmem.1, hmem.2.1, by rw [hmem.2.2, Bool.true_or]⟩

theorem Resembles.mergeUpdate (h : c.Resembles watched c') (hs : c.Sized layout) (u : TileUpdate) :
    (∃ e, c.mergeUpdate u = .error e ∧ c'.mergeUpdate u = .error e) ∨
      ∃ d d', c.mergeUpdate u = .ok d ∧ c'.mergeUpdate u = .ok d' ∧ d.Resembles watched d' := by
  obtain ⟨data, rfl⟩ : ∃ data, c' = { c with data } := ⟨_, h.eq_with_data⟩
  unfold Channel.mergeUpdate
  cases hfit : u.mismatch? c.layout c.numChan with
  | some e => exact .inl ⟨e, rfl, rfl⟩
  | none =>
    have hf := TileUpdate.mismatch?_eq_none_iff.mp hfit
    cases hm : c.mask.merge u.mask with
    | error e => exact .inl ⟨e, rfl, rfl⟩
    | ok mask =>
      refine .inr ⟨_, _, rfl, rfl, rfl, by simpa using h.size_data, fun hw k hk => ?_⟩
      refine getElem?_overlay_congr hf.size_values h.size_data (fun hlt => ?_) fun hu => ?_
      · rw [hs.size_data] at hlt
        exact Nat.pos_of_mul_pos_left (Nat.zero_lt_of_lt hlt)
      · exact h.values hw k fun hg => hk (hg.of_merge hm hu)

/-- After a reset that takes the values, nothing is left to differ in. -/
theorem Resembles.reset_eq (h : c.Resembles watched c') : c'.reset = c.reset := by
  rw [h.eq_with_data, Channel.reset, Channel.reset, Array.map_const', Array.map_const', h.size_data]

theorem Resembles.resetCoverage (h : c.Resembles watched c') : c.resetCoverage.Resembles false c'.resetCoverage := by
  obtain ⟨data, rfl⟩ : ∃ data, c' = { c with data } := ⟨_, h.eq_with_data⟩
  exact ⟨rfl, h.size_data, nofun⟩

/-- In the area of a readout, a fill leaves the same values in both channels. -/
theorem Resembles.getElem?_extrapolate_area (h : c.Resembles true c') (hs : c.Sized layout)
    (ha : layout.area? roi = some area) {x y j : Nat} (hin : layout.inImage x y = true)
    (hxy : area.contains x y = true) (hj : j < c.numChan) :
    (c'.extrapolate roi).data[layout.slot x y * c.numChan + j]? =
      (c.extrapolate roi).data[layout.slot x y * c.numChan + j]? := by
  obtain ⟨data, rfl⟩ : ∃ data, c' = { c with data } := ⟨_, h.eq_with_data⟩
  have hs' := h.sized hs
  have hvalues := h.values rfl
  by_cases hg : c.IsGap (layout.slot x y)
  · -- Both take over from the same slot, and that one has data.
    have hpixel : layout.pixelOf (layout.slot x y) = (x, y) :=
      TileLayout.pixelOf_slot hin
    have hmeets := Viewport.meetsTile_of_contains hxy
    obtain ⟨source, hf⟩ : ∃ source, c.fillSource? area (layout.slot x y) = some source :=
      exists_fillSource? hg (by rw [hs.layout_eq, hpixel]; exact hmeets)
    have hlt := TileLayout.slot_lt_capacity hin
    have hsource : ¬ c.IsGap source := not_isGap_of_isCovered (isCovered_of_mem_coveredSlots (fillSource?_isGap hf).2)
    rw [getElem?_extrapolate_of_source hs ha hlt hf hj,
      getElem?_extrapolate_of_source (c := { c with data }) hs' ha hlt hf hj]
    exact hvalues _ (by rwa [div_of_slot hj])
  · have hk : ¬ c.IsGap ((layout.slot x y * c.numChan + j) / c.numChan) := by rwa [div_of_slot hj]
    rw [getElem?_extrapolate_of_not_isGap hk,
      getElem?_extrapolate_of_not_isGap (c := { c with data }) (mt isGap_congr.mp hk)]
    exact hvalues _ hk

/-- What is read out after a fill is the same in both channels. -/
theorem Resembles.untile_extrapolate (h : c.Resembles true c') (hs : c.Sized layout) (o : Orientation)
    (first last : Nat) :
    (c'.extrapolate roi).untile o roi first last = (c.extrapolate roi).untile o roi first last := by
  have hlayout : c'.layout = c.layout := by rw [h.eq_with_data]
  have hnum : c'.numChan = c.numChan := by rw [h.eq_with_data]
  simp only [untile, layout_extrapolate, numChan_extrapolate, hlayout, hnum]
  cases ha : c.layout.area? roi with
  | none => rfl
  | some area =>
    obtain ⟨hx₀, -, hy₀, -⟩ := TileLayout.area?_within ha
    simp only [Readout.mk.injEq, true_and]
    apply Array.map_congr_left
    intro k hk
    have hlt := Array.mem_range.mp hk
    have harea : layout.area? roi = some area := hs.layout_eq ▸ ha
    have hxy := Viewport.contains_pixelAt o hx₀ hy₀ hlt
    have hin := Viewport.inImage_pixelAt harea o hlt
    have hj : min first c.numChan + k % (min last c.numChan - min first c.numChan) < c.numChan := value_lt_numChan hlt
    simp only [readValue_eq, layout_extrapolate, numChan_extrapolate, hlayout, hnum, hs.layout_eq,
      Array.getD_eq_getD_getElem?, Nat.add_assoc]
    rw [h.getElem?_extrapolate_area hs harea hin hxy hj]

end Resembles

end Channel

end ProgressiveFrame
