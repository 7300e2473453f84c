import Mathlib.Data.Finset.Card
import Mathlib.Data.Finset.Prod
import Mathlib.Data.Set.Function
import Mathlib.Order.Interval.Finset.Nat
import ProgressiveFrame.Proofs.Bounds.Fill

/-!
# Slots and pixels are one for one

The tiles of a layout cover the image and reach beyond its right and upper edge. Each pixel of a tile has a slot below
the capacity, padding or not, and no two have the same.

* `TileLayout.image`, `TileLayout.padded`: the pixels of the image, and those of the tiles. `slot_bijOn`: the latter are
  the slots, one for one, and `slot_invOn`: what leads from slots to pixels undoes what leads from pixels to slots, and
  the other way round.
* `TileLayout.card_isPixel`: as many slots belong to the image as it has pixels.
* `TileLayout.tileAt`: the slots of one tile. `pixelOf_bijOn_tileAt`: they are the pixels of a square.
* `TileLayout.slotChecked`, `capacityChecked`: slots and capacity, with each number on the way asked to be a word of 64
  bits. `slotChecked_eq`: slots always are. `capacityChecked_eq_some_iff`: the capacity is, but for the largest layouts.
* `TileLayout.addressing_bijective`: all of this for every layout.
-/

namespace ProgressiveFrame

namespace TileLayout

variable {l : TileLayout} {column row x y : Nat}

/-! ## Pixels of the tiles -/

/-- The pixels of the image. -/
def image (l : TileLayout) : Finset (Nat × Nat) := Finset.range l.width ×ˢ Finset.range l.height

theorem mem_image : (x, y) ∈ l.image ↔ l.inImage x y = true := by
  rw [image, Finset.mem_product, Finset.mem_range, Finset.mem_range, inImage_iff]

theorem card_image (l : TileLayout) : l.image.card = l.width * l.height := by
  rw [image, Finset.card_product, Finset.card_range, Finset.card_range]

/-- The pixels of the tiles, those of the padding included. -/
def padded (l : TileLayout) : Finset (Nat × Nat) :=
  Finset.range (tileEdge * l.tilesX) ×ˢ Finset.range (tileEdge * l.tilesY)

/-- A pixel is in the tiles if its tile is one of the layout. -/
theorem mem_padded : (x, y) ∈ l.padded ↔ x / tileEdge < l.tilesX ∧ y / tileEdge < l.tilesY := by
  rw [padded, Finset.mem_product, Finset.mem_range, Finset.mem_range]
  simp only [tileEdge]
  omega

/-- The tiles cover the image. -/
theorem image_subset_padded (l : TileLayout) : l.image ⊆ l.padded := by
  rintro ⟨x, y⟩ hp
  obtain ⟨hx, hy⟩ := inImage_iff.mp (mem_image.mp hp)
  exact mem_padded.mpr ⟨div_tileEdge_lt hx, div_tileEdge_lt hy⟩

theorem slot_mapsTo (l : TileLayout) :
    Set.MapsTo (fun p : Nat × Nat => l.slot p.1 p.2) l.padded (Finset.range l.capacity) := by
  rintro ⟨x, y⟩ hp
  obtain ⟨hcol, hrow⟩ := mem_padded.mp hp
  exact Finset.mem_coe.mpr (Finset.mem_range.mpr (slot_lt_capacity_of_tile hcol hrow))

theorem pixelOf_mapsTo (l : TileLayout) : Set.MapsTo l.pixelOf (Finset.range l.capacity) l.padded := by
  intro slot hslot
  exact Finset.mem_coe.mpr (mem_padded.mpr (pixelOf_div_lt (Finset.mem_range.mp hslot)))

/-- Slots and pixels of the tiles lead back to each other. -/
theorem slot_invOn (l : TileLayout) :
    Set.InvOn l.pixelOf (fun p : Nat × Nat => l.slot p.1 p.2) l.padded (Finset.range l.capacity) := by
  constructor
  · rintro ⟨x, y⟩ hp
    exact pixelOf_slot_of_column (mem_padded.mp hp).1 y
  · intro slot _
    exact l.slot_pixelOf slot

/-- Each pixel of the tiles has its own slot, and no slot is left over. -/
theorem slot_bijOn (l : TileLayout) :
    Set.BijOn (fun p : Nat × Nat => l.slot p.1 p.2) l.padded (Finset.range l.capacity) :=
  l.slot_invOn.bijOn l.slot_mapsTo l.pixelOf_mapsTo

/-- Two pixels of the image have two slots. -/
theorem slot_injOn (l : TileLayout) : Set.InjOn (fun p : Nat × Nat => l.slot p.1 p.2) l.image :=
  l.slot_bijOn.injOn.mono (Finset.coe_subset.mpr l.image_subset_padded)

/-- As many slots belong to the image as it has pixels. -/
theorem card_isPixel (l : TileLayout) :
    ((Finset.range l.capacity).filter fun slot => l.isPixel slot).card = l.width * l.height := by
  rw [← l.card_image]
  refine Finset.card_nbij' l.pixelOf (fun p => l.slot p.1 p.2) ?_ ?_ ?_ ?_
  · intro slot hslot
    exact mem_image.mpr (Finset.mem_filter.mp hslot).2
  · rintro ⟨x, y⟩ hp
    have hin := mem_image.mp hp
    refine Finset.mem_filter.mpr ⟨Finset.mem_range.mpr (slot_lt_capacity hin), ?_⟩
    rwa [isPixel, pixelOf_slot hin]
  · intro slot _
    exact l.slot_pixelOf slot
  · rintro ⟨x, y⟩ hp
    exact pixelOf_slot (mem_image.mp hp)

/-! ## Slots of a tile -/

/-- The slots of the tile in a column and a row. -/
def tileAt (l : TileLayout) (column row : Nat) : Finset Nat :=
  Finset.Ico ((row * l.tilesX + column) * tileSlots) ((row * l.tilesX + column + 1) * tileSlots)

theorem mem_tileAt {slot : Nat} : slot ∈ l.tileAt column row ↔ slot / tileSlots = row * l.tilesX + column := by
  rw [tileAt, Finset.mem_Ico]
  simp only [tileSlots, tileEdge]
  omega

theorem card_tileAt (l : TileLayout) (column row : Nat) : (l.tileAt column row).card = tileSlots := by
  rw [tileAt, Nat.card_Ico, Nat.succ_mul, Nat.add_sub_cancel_left]

/-- The slots of a tile are those of the pixels in a square with edges of the length of a tile. -/
theorem pixelOf_bijOn_tileAt (hcol : column < l.tilesX) (row : Nat) :
    Set.BijOn l.pixelOf (l.tileAt column row) {p | p.1 / tileEdge = column ∧ p.2 / tileEdge = row} := by
  have hinv : Set.InvOn (fun p : Nat × Nat => l.slot p.1 p.2) l.pixelOf (l.tileAt column row)
      {p | p.1 / tileEdge = column ∧ p.2 / tileEdge = row} := by
    constructor
    · intro slot _
      exact l.slot_pixelOf slot
    · rintro ⟨x, y⟩ ⟨rfl, -⟩
      exact pixelOf_slot_of_column hcol y
  refine hinv.bijOn ?_ ?_
  · intro slot hslot
    have htile : slot / tileSlots = row * l.tilesX + column := mem_tileAt.mp hslot
    rw [Set.mem_ofPred_eq, (l.pixelOf_div slot).1, (l.pixelOf_div slot).2, htile, mod_of_slot hcol, div_of_slot hcol]
    exact ⟨rfl, rfl⟩
  · rintro ⟨x, y⟩ ⟨rfl, rfl⟩
    exact mem_tileAt.mpr (l.slot_div x y)

/-- The slots of a tile are slots of the layout. -/
theorem tileAt_subset (hcol : column < l.tilesX) (hrow : row < l.tilesY) :
    l.tileAt column row ⊆ Finset.range l.capacity := by
  intro slot hslot
  obtain ⟨hx, hy⟩ := (pixelOf_bijOn_tileAt hcol row).mapsTo hslot
  have hlt := slot_lt_capacity_of_tile (x := (l.pixelOf slot).1) (hx ▸ hcol) (hy ▸ hrow)
  rw [slot_pixelOf] at hlt
  exact Finset.mem_range.mpr hlt

/-! ## Slots in words -/

/-- A number that is a word of 64 bits. -/
def longWord? (n : Nat) : Option Nat := if isLongWord n then some n else none

/-- The number of slots, counted in words. -/
def capacityChecked (l : TileLayout) : Option Nat := do
  let tiles ← longWord? (l.tilesX * l.tilesY)
  longWord? (tiles * tileSlots)

/-- The slot of a pixel, counted in words. -/
def slotChecked (l : TileLayout) (x y : Nat) : Option Nat := do
  let below ← longWord? (y / tileEdge * l.tilesX)
  let tile ← longWord? (below + x / tileEdge)
  let first ← longWord? (tile * tileSlots)
  longWord? (first + (y % tileEdge * tileEdge + x % tileEdge))

theorem isLongWord_iff {n : Nat} : isLongWord n = true ↔ n < 0x10000000000000000 := decide_eq_true_iff

theorem longWord?_of_le {n m : Nat} (hle : n ≤ m) (hm : isLongWord m = true) : longWord? n = some n :=
  if_pos (isLongWord_iff.mpr (Nat.lt_of_le_of_lt hle (isLongWord_iff.mp hm)))

/-- A side that is a coordinate has at most so many tiles. -/
theorem div_le_of_lt_coordinateLimit {n : Nat} (h : n < coordinateLimit) :
    (n + (tileEdge - 1)) / tileEdge ≤ 0x20000000 := by
  simp only [coordinateLimit, tileEdge] at *
  omega

/-- The slot of coordinates is a word. The greatest one is the last word, where the layout has as many columns of tiles
as it can have. -/
theorem isLongWord_slot (hw : l.width < coordinateLimit) (hx : x < coordinateLimit) (hy : y < coordinateLimit) :
    isLongWord (l.slot x y) = true := by
  have hcols : l.tilesX ≤ 0x20000000 := div_le_of_lt_coordinateLimit hw
  have hrows : y / tileEdge ≤ 0x1fffffff := by
    simp only [coordinateLimit, tileEdge] at *
    omega
  have hbelow : y / tileEdge * l.tilesX ≤ 0x1fffffff * 0x20000000 := Nat.mul_le_mul hrows hcols
  rw [isLongWord_iff]
  simp only [slot, tileSlots, tileEdge, coordinateLimit] at *
  omega

/-- No number on the way to a slot leaves its word. -/
theorem slotChecked_eq (hw : l.width < coordinateLimit) (hx : x < coordinateLimit) (hy : y < coordinateLimit) :
    l.slotChecked x y = some (l.slot x y) := by
  have hslot := isLongWord_slot hw hx hy
  -- No number on the way is greater than the slot.
  have hfirst : (y / tileEdge * l.tilesX + x / tileEdge) * tileSlots ≤ l.slot x y := Nat.le_add_right _ _
  have htile : y / tileEdge * l.tilesX + x / tileEdge ≤ l.slot x y :=
    Nat.le_trans (Nat.le_mul_of_pos_right _ (by decide)) hfirst
  have hbelow : y / tileEdge * l.tilesX ≤ l.slot x y := Nat.le_trans (Nat.le_add_right _ _) htile
  simp only [slotChecked, longWord?_of_le hbelow hslot, longWord?_of_le htile hslot, longWord?_of_le hfirst hslot,
    Option.bind_eq_bind, Option.bind_some]
  exact longWord?_of_le (Nat.le_refl _) hslot

/-- The capacity can be counted if it is a word. -/
theorem capacityChecked_eq_some_iff_isLongWord (l : TileLayout) :
    l.capacityChecked = some l.capacity ↔ isLongWord l.capacity = true := by
  constructor
  · intro h
    obtain ⟨tiles, -, hcapacity⟩ := Option.bind_eq_some_iff.mp h
    rw [longWord?, Option.ite_none_right_eq_some] at hcapacity
    obtain ⟨hword, heq⟩ := hcapacity
    rwa [Option.some.inj heq] at hword
  · intro hword
    have htiles : l.tilesX * l.tilesY ≤ l.capacity := Nat.le_mul_of_pos_right _ (by decide)
    simp only [capacityChecked, longWord?_of_le htiles hword, Option.bind_eq_bind, Option.bind_some]
    exact longWord?_of_le (Nat.le_refl _) hword

/-- The capacity leaves its word just where both sides are within a tile of the end of the coordinates. -/
theorem capacityChecked_eq_some_iff (hw : l.width < coordinateLimit) (hh : l.height < coordinateLimit) :
    l.capacityChecked = some l.capacity ↔
      l.width ≤ coordinateLimit - tileEdge ∨ l.height ≤ coordinateLimit - tileEdge := by
  have hcols : l.tilesX ≤ 0x20000000 := div_le_of_lt_coordinateLimit hw
  have hrows : l.tilesY ≤ 0x20000000 := div_le_of_lt_coordinateLimit hh
  have hwidth : l.width ≤ coordinateLimit - tileEdge ↔ l.tilesX ≤ 0x1fffffff := by
    simp only [tilesX, coordinateLimit, tileEdge] at *
    omega
  have hheight : l.height ≤ coordinateLimit - tileEdge ↔ l.tilesY ≤ 0x1fffffff := by
    simp only [tilesY, coordinateLimit, tileEdge] at *
    omega
  rw [capacityChecked_eq_some_iff_isLongWord, isLongWord_iff, hwidth, hheight]
  simp only [capacity, tileCount, tileSlots, tileEdge]
  constructor
  · intro hlt
    by_contra hnot
    -- Both sides have as many tiles as coordinates allow, and the product is one more than the last word.
    have hall : l.tilesX = 0x20000000 ∧ l.tilesY = 0x20000000 := by omega
    rw [hall.1, hall.2] at hlt
    omega
  · rintro (hfew | hfew)
    · have htiles : l.tilesX * l.tilesY ≤ 0x1fffffff * 0x20000000 := Nat.mul_le_mul hfew hrows
      omega
    · have htiles : l.tilesX * l.tilesY ≤ 0x20000000 * 0x1fffffff := Nat.mul_le_mul hcols hfew
      omega

/-- The number of slots of the layout with the longest sides is no word. With a row of tiles less, it is one. -/
example : capacityChecked ⟨0xffffffff, 0xffffffff⟩ = none ∧
    capacityChecked ⟨0xffffffff, 0xfffffff8⟩ = some 0xfffffff800000000 := by decide

/-! ## One for one -/

/-- Slots and pixels of a layout are one for one: over all tiles, in the image and in each tile. -/
structure Addressing (l : TileLayout) : Prop where
  bijOn : Set.BijOn (fun p : Nat × Nat => l.slot p.1 p.2) l.padded (Finset.range l.capacity)
  invOn : Set.InvOn l.pixelOf (fun p : Nat × Nat => l.slot p.1 p.2) l.padded (Finset.range l.capacity)
  image_subset : l.image ⊆ l.padded
  slot_lt : ∀ x y, l.inImage x y = true → l.slot x y < l.capacity
  slot_injOn : Set.InjOn (fun p : Nat × Nat => l.slot p.1 p.2) l.image
  card_isPixel : ((Finset.range l.capacity).filter fun slot => l.isPixel slot).card = l.width * l.height
  /-- The slots of a tile follow each other, and their pixels are those of a square. -/
  tileAt : ∀ column < l.tilesX, ∀ row < l.tilesY,
    l.tileAt column row ⊆ Finset.range l.capacity ∧ (l.tileAt column row).card = tileSlots ∧
      Set.BijOn l.pixelOf (l.tileAt column row) {p | p.1 / tileEdge = column ∧ p.2 / tileEdge = row}

/-- Slots and pixels of a layout can be found with words. -/
structure WordAddressing (l : TileLayout) : Prop where
  coordinates : ∀ p ∈ l.padded, p.1 < coordinateLimit ∧ p.2 < coordinateLimit
  slot : ∀ x < coordinateLimit, ∀ y < coordinateLimit, l.slotChecked x y = some (l.slot x y)
  pixelOf : ∀ slot < l.capacity, l.pixelOf? slot = some (l.pixelOf slot)
  /-- Only the capacity may be no word. -/
  capacity : l.capacityChecked = some l.capacity ↔
    l.width ≤ coordinateLimit - tileEdge ∨ l.height ≤ coordinateLimit - tileEdge

theorem addressing (l : TileLayout) : l.Addressing where
  bijOn := l.slot_bijOn
  invOn := l.slot_invOn
  image_subset := l.image_subset_padded
  slot_lt _ _ := slot_lt_capacity
  slot_injOn := l.slot_injOn
  card_isPixel := l.card_isPixel
  tileAt column hcol row hrow := ⟨tileAt_subset hcol hrow, l.card_tileAt column row, pixelOf_bijOn_tileAt hcol row⟩

theorem wordAddressing (hw : l.width < coordinateLimit) (hh : l.height < coordinateLimit) : l.WordAddressing where
  coordinates := by
    rintro ⟨x, y⟩ hp
    have hcols : l.tilesX ≤ 0x20000000 := div_le_of_lt_coordinateLimit hw
    have hrows : l.tilesY ≤ 0x20000000 := div_le_of_lt_coordinateLimit hh
    obtain ⟨hx, hy⟩ := mem_padded.mp hp
    simp only [coordinateLimit, tileEdge] at *
    omega
  slot _ hx _ hy := slotChecked_eq hw hx hy
  pixelOf _ hslot := pixelOf?_of_lt_capacity hh hslot
  capacity := capacityChecked_eq_some_iff hw hh

/-- The addressing of every layout is one for one, and where the sides are coordinates, it is so in words. -/
theorem addressing_bijective (l : TileLayout) :
    l.Addressing ∧ (l.width < coordinateLimit → l.height < coordinateLimit → l.WordAddressing) :=
  ⟨l.addressing, wordAddressing⟩

/-- An image of 20 by 12 pixels has two rows of three tiles, and the last tile of the second row is padded on both
sides. -/
theorem addressing_bijective_padded :
    let l : TileLayout := ⟨20, 12⟩
    Set.BijOn (fun p : Nat × Nat => l.slot p.1 p.2) (Finset.range 24 ×ˢ Finset.range 16 : Finset (Nat × Nat))
        (Finset.range 384) ∧
      l.slot 23 15 = 383 ∧ l.pixelOf 383 = (23, 15) ∧ ((Finset.range 384).filter fun slot => l.isPixel slot).card = 240 ∧
      Set.BijOn l.pixelOf (Finset.Ico 320 384) {p | p.1 / tileEdge = 2 ∧ p.2 / tileEdge = 1} ∧
      l.slotChecked 23 15 = some 383 ∧ l.pixelOf? 383 = some (23, 15) ∧ l.capacityChecked = some 384 := by
  intro l
  obtain ⟨hall, hwords⟩ := addressing_bijective l
  have hword := hwords (by decide) (by decide)
  have hcapacity : l.capacity = 384 := by decide
  have hcols : tileEdge * l.tilesX = 24 := by decide
  have hrows : tileEdge * l.tilesY = 16 := by decide
  have hpadded : l.padded = Finset.range 24 ×ˢ Finset.range 16 := by rw [padded, hcols, hrows]
  have hlast : l.slot 23 15 = 383 := by decide
  have hback : l.pixelOf 383 = (23, 15) := by decide
  have htile : l.tileAt 2 1 = Finset.Ico 320 384 := congrArg₂ Finset.Ico (by decide) (by decide)
  refine ⟨?_, hlast, hback, ?_, ?_, ?_, ?_, ?_⟩
  · rw [← hpadded, ← hcapacity]
    exact hall.bijOn
  · rw [← hcapacity]
    exact hall.card_isPixel
  · rw [← htile]
    exact (hall.tileAt 2 (by decide) 1 (by decide)).2.2
  · rw [hword.slot 23 (by decide) 15 (by decide), hlast]
  · rw [hword.pixelOf 383 (by decide), hback]
  · rw [hword.capacity.mpr (.inl (by decide)), hcapacity]

end TileLayout

end ProgressiveFrame
