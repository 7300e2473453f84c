import ProgressiveFrame.Proofs.Bounds.Channel

/-!
# Readouts stay in their channel

A readout goes through the pixels of its area, takes the values of each, and of these the ones that are asked for. The
area lies in the image, so each pixel has its values.

* `Channel.pixelChecked`, `Channel.sampleCountChecked`: a pixel and its ray count, where there is a place for them.
* `Channel.untileChecked`: a readout that asks for each part of the data first.
* `Sound.untileChecked_eq`: it has a result, and the result is that of `untile`.
-/

namespace ProgressiveFrame.Channel

/-- The values of a pixel, if the data have them. -/
def pixelAtChecked (c : Channel) (x y : Nat) : Option (Array Binary32) :=
  let start := c.layout.slot x y * c.numChan
  slice? c.data start (start + c.numChan)

/-- The values of a pixel of the image, where the data have them. -/
def pixelChecked (c : Channel) (x y : Nat) : Option (Option (Array Binary32)) :=
  if c.layout.inImage x y then (c.pixelAtChecked x y).map some else some none

/-- The ray count of a pixel of the image, where the counts have it. -/
def sampleCountChecked (c : Channel) (x y : Nat) : Option (Option Binary32) :=
  if c.layout.inImage x y then
    match c.sampleCounts with
    | some counts => (counts[c.layout.slot x y]?).map some
    | none => some none
  else some none

/-- The values that are asked for of one pixel of a readout are put behind those of the pixels before it. -/
def appendPixel (c : Channel) (o : Orientation) (area : Viewport) (first last row : Nat) (out : Array Binary32)
    (column : Nat) : Option (Array Binary32) := do
  let pixel ← c.pixelAtChecked (area.minX + column).toNat (o.line area row).toNat
  let values ← slice? pixel first last
  return out ++ values

/-- The values that are asked for of all pixels of an area, row by row. -/
def untileArea (c : Channel) (o : Orientation) (area : Viewport) (first last : Nat) : Option (Array Binary32) :=
  (List.range area.height).foldlM
    (fun out row => (List.range area.width).foldlM (c.appendPixel o area first last row) out) #[]

/-- A readout that asks for each part of the data first. -/
def untileChecked (c : Channel) (o : Orientation) (roi : Option Viewport) (first last : Nat) : Option Readout :=
  let first := min first c.numChan
  let last := min last c.numChan
  match c.layout.area? roi with
  | none => some ⟨0, 0, last - first, #[]⟩
  | some area => do
    let data ← c.untileArea o area first last
    return ⟨area.width, area.height, last - first, data⟩

variable {c : Channel} {x y : Nat}

/-- A pixel of the image has its values in the data. -/
theorem Sound.pixelAtChecked_eq (h : c.Sound) (hin : c.layout.inImage x y = true) :
    c.pixelAtChecked x y = some (c.slotValues (c.layout.slot x y)) := by
  have hle := h.slot_le (TileLayout.slot_lt_capacity hin)
  rw [Nat.succ_mul] at hle
  rw [pixelAtChecked, slice?_of_le (by omega) hle, slotValues, Nat.succ_mul]

theorem Sound.pixelChecked_eq (h : c.Sound) (x y : Nat) : c.pixelChecked x y = some (c.pixel? x y) := by
  rw [pixelChecked, pixel?]
  split
  · rename_i hin
    rw [h.pixelAtChecked_eq hin, Option.map_some]
  · rfl

theorem Sound.sampleCountChecked_eq (h : c.Sound) (x y : Nat) :
    c.sampleCountChecked x y = some (c.sampleCount? x y) := by
  rw [sampleCountChecked, sampleCount?]
  split
  · rename_i hin
    cases hcounts : c.sampleCounts with
    | none => rfl
    | some counts =>
      have hlt : c.layout.slot x y < counts.size := h.size_counts counts hcounts ▸ TileLayout.slot_lt_capacity hin
      simp [hlt]
  · rfl

/-! ## Areas -/

variable {o : Orientation} {roi : Option Viewport} {area : Viewport} {first last row column : Nat}

/-- The first values of a readout, those of so many pixels. -/
def valuesOfPixels (c : Channel) (o : Orientation) (area : Viewport) (first count pixels : Nat) : Array Binary32 :=
  (Array.range (pixels * count)).map (c.readValue o area first count)

/-- One pixel more gives its values more. -/
theorem valuesOfPixels_succ (c : Channel) (o : Orientation) (area : Viewport) (first count pixels : Nat) :
    c.valuesOfPixels o area first count (pixels + 1) = c.valuesOfPixels o area first count pixels ++
      (Array.range count).map fun j => c.readValue o area first count (pixels * count + j) := by
  apply Array.ext_getElem?
  intro k
  simp only [valuesOfPixels, Array.getElem?_append, Array.size_map, Array.size_range]
  split
  · rename_i hk
    have hlt : k < (pixels + 1) * count := by rw [Nat.succ_mul]; omega
    simp [hk, hlt]
  · rename_i hk
    by_cases hlt : k < (pixels + 1) * count
    · have hin : k - pixels * count < count := by rw [Nat.succ_mul] at hlt; omega
      simp [hlt, hin, Nat.add_sub_cancel' (Nat.le_of_not_lt hk)]
    · have hout : ¬ k - pixels * count < count := by rw [Nat.succ_mul] at hlt; omega
      simp [hlt, hout]

/-- The pixel that a step of a readout shows is in the image. -/
theorem inImage_of_area? (ha : c.layout.area? roi = some area) (o : Orientation) (hrow : row < area.height)
    (hcolumn : column < area.width) :
    c.layout.inImage (area.minX + column).toNat (o.line area row).toNat = true := by
  have hk : row * area.width + column < area.width * area.height * 1 := by
    have hnext := Nat.mul_le_mul_right area.width (Nat.succ_le_of_lt hrow)
    rw [Nat.succ_mul] at hnext
    rw [Nat.mul_one, Nat.mul_comm area.width]
    omega
  have hin := Viewport.inImage_pixelAt ha o hk
  rwa [Viewport.pixelAt, Nat.div_one, mod_of_slot hcolumn, div_of_slot hcolumn] at hin

/-- One pixel of a readout has its values in the data. -/
theorem Sound.appendPixel_eq (h : c.Sound) (ha : c.layout.area? roi = some area) (hrow : row < area.height)
    (hcolumn : column < area.width) (hfirst : first ≤ last) (hlast : last ≤ c.numChan) :
    c.appendPixel o area first last row (c.valuesOfPixels o area first (last - first) (row * area.width + column))
        column =
      some (c.valuesOfPixels o area first (last - first) (row * area.width + column + 1)) := by
  have hin := inImage_of_area? ha o hrow hcolumn
  have hle := h.slot_le (TileLayout.slot_lt_capacity hin)
  have hsize : (c.slotValues (c.layout.slot (area.minX + column).toNat (o.line area row).toNat)).size = c.numChan :=
    size_extract_slot hle
  have hvalues : (c.slotValues (c.layout.slot (area.minX + column).toNat (o.line area row).toNat)).extract first last =
      (Array.range (last - first)).map fun j =>
        c.readValue o area first (last - first) ((row * area.width + column) * (last - first) + j) := by
    apply Array.ext
    · simp only [Array.size_extract, hsize, Array.size_map, Array.size_range]
      omega
    · intro j hj _
      have hj : j < last - first := by
        simp only [Array.size_extract, hsize] at hj
        omega
      rw [Nat.succ_mul] at hle
      simp only [Array.getElem_extract, slotValues, Array.getElem_map, Array.getElem_range, readValue, div_of_slot hj,
        mod_of_slot hj, div_of_slot hcolumn, mod_of_slot hcolumn, Array.getD_eq_getD_getElem?]
      rw [Array.getElem?_eq_getElem (by omega)]
      simp [Nat.add_assoc]
  rw [appendPixel, h.pixelAtChecked_eq hin, Option.bind_eq_bind, Option.bind_some,
    slice?_of_le hfirst (hsize ▸ hlast), Option.bind_some, valuesOfPixels_succ, hvalues]
  rfl

theorem Sound.untileArea_eq (h : c.Sound) (ha : c.layout.area? roi = some area) (hfirst : first ≤ last)
    (hlast : last ≤ c.numChan) : c.untileArea o area first last =
      some ((Array.range (area.width * area.height * (last - first))).map
        (c.readValue o area first (last - first))) := by
  have hrow (row : Nat) (hr : row < area.height) : (List.range area.width).foldlM (c.appendPixel o area first last row)
      (c.valuesOfPixels o area first (last - first) (row * area.width)) =
        some (c.valuesOfPixels o area first (last - first) ((row + 1) * area.width)) := by
    rw [Nat.succ_mul]
    exact foldlM_range (fun column => c.valuesOfPixels o area first (last - first) (row * area.width + column))
      fun column hc => h.appendPixel_eq ha hr hc hfirst hlast
  have hrows : c.untileArea o area first last =
      some (c.valuesOfPixels o area first (last - first) (area.height * area.width)) := by
    have hnone : #[] = c.valuesOfPixels o area first (last - first) (0 * area.width) := by simp [valuesOfPixels]
    rw [untileArea, hnone]
    exact foldlM_range (fun row => c.valuesOfPixels o area first (last - first) (row * area.width)) hrow
  rw [hrows, valuesOfPixels, Nat.mul_comm area.height]

/-- A readout never asks for what is not there. -/
theorem Sound.untileChecked_eq (h : c.Sound) (o : Orientation) (roi : Option Viewport) (hrange : first ≤ last) :
    c.untileChecked o roi first last = some (c.untile o roi first last) := by
  simp only [untileChecked, untile]
  cases ha : c.layout.area? roi with
  | none => rfl
  | some area =>
    have hfirst : min first c.numChan ≤ min last c.numChan := by omega
    simp only [h.untileArea_eq ha hfirst (Nat.min_le_right ..)]
    rfl

end ProgressiveFrame.Channel
