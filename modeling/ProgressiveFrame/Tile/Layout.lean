/-!
# Tile layout

An image is stored in square tiles of 8 by 8 pixels. Tiles are numbered row by row from the bottom
left one, and so are the pixels of a tile; tiles at the right and upper edge are padded. The slot
of a pixel is `64 * tile + offset`.
-/

namespace ProgressiveFrame

/-- The number of pixels along the edge of a tile. -/
def tileEdge : Nat := 8

/-- The number of slots of a tile. -/
def tileSlots : Nat := tileEdge * tileEdge

/-- The division of an image of a size into tiles. -/
structure TileLayout where
  width : Nat
  height : Nat
deriving DecidableEq, Inhabited

namespace TileLayout

/-- The number of tiles in a row. -/
def tilesX (l : TileLayout) : Nat := (l.width + (tileEdge - 1)) / tileEdge

/-- The number of tiles in a column. -/
def tilesY (l : TileLayout) : Nat := (l.height + (tileEdge - 1)) / tileEdge

/-- The number of tiles. -/
def tileCount (l : TileLayout) : Nat := l.tilesX * l.tilesY

/-- The number of slots, padding included. -/
def capacity (l : TileLayout) : Nat := l.tileCount * tileSlots

/-- The size of the image. -/
def size (l : TileLayout) : Nat × Nat := (l.width, l.height)

/-- Whether a pixel lies in the image. -/
def inImage (l : TileLayout) (x y : Nat) : Bool := x < l.width && y < l.height

/-- The slot of a pixel. -/
def slot (l : TileLayout) (x y : Nat) : Nat :=
  ((y / tileEdge) * l.tilesX + x / tileEdge) * tileSlots + ((y % tileEdge) * tileEdge + x % tileEdge)

/-- The pixel of a slot, which lies outside the image for padding. -/
def pixelOf (l : TileLayout) (slot : Nat) : Nat × Nat :=
  let tile := slot / tileSlots
  let offset := slot % tileSlots
  ((tile % l.tilesX) * tileEdge + offset % tileEdge, (tile / l.tilesX) * tileEdge + offset / tileEdge)

/-- The number of values of a coordinate. -/
def coordinateLimit : Nat := 0x100000000

/-- The pixel of a slot, none where the layout has no tile column to divide by or the pixel has no
coordinates. The row of tiles is reduced to a coordinate before it is multiplied. -/
def pixelOf? (l : TileLayout) (slot : Nat) : Option (Nat × Nat) :=
  let tileRow := slot / tileSlots / l.tilesX % coordinateLimit
  if l.tilesX = 0 ∨ coordinateLimit ≤ tileRow * tileEdge then none
  else some ((l.pixelOf slot).1, tileRow * tileEdge + slot % tileSlots / tileEdge)

/-- A slot whose pixel has coordinates is taken to that pixel. -/
theorem pixelOf?_of_lt {l : TileLayout} {slot : Nat} (hx : l.tilesX ≠ 0)
    (h : (l.pixelOf slot).2 < coordinateLimit) : l.pixelOf? slot = some (l.pixelOf slot) := by
  have hrow : slot / tileSlots / l.tilesX * tileEdge < coordinateLimit :=
    Nat.lt_of_le_of_lt (Nat.le_add_right _ _) h
  have hmod : slot / tileSlots / l.tilesX % coordinateLimit = slot / tileSlots / l.tilesX := by
    apply Nat.mod_eq_of_lt
    simp only [tileEdge] at hrow
    omega
  rw [pixelOf?, hmod, if_neg (by omega)]
  rfl

theorem inImage_iff {l : TileLayout} {x y : Nat} : l.inImage x y = true ↔ x < l.width ∧ y < l.height := by
  simp [inImage]

/-- The tile of the slot of a pixel. -/
theorem slot_div (l : TileLayout) (x y : Nat) :
    l.slot x y / tileSlots = (y / tileEdge) * l.tilesX + x / tileEdge := by
  simp only [slot, tileSlots, tileEdge]
  omega

/-- The offset in its tile of the slot of a pixel. -/
theorem slot_mod (l : TileLayout) (x y : Nat) :
    l.slot x y % tileSlots = (y % tileEdge) * tileEdge + x % tileEdge := by
  simp only [slot, tileSlots, tileEdge]
  omega

end TileLayout

end ProgressiveFrame
