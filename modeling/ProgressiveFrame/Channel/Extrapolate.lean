import ProgressiveFrame.Channel.Basic
import ProgressiveFrame.Viewport

/-!
# Filling partly covered tiles

Before a sparse pass is shown, each pixel without data is given the values of the nearest pixel
with data in the same tile. Coverage stays as it is, so a second fill finds the same sources and
changes nothing. A tile without any data is left alone.
-/

namespace ProgressiveFrame

/-- The viewport of the whole image, in coordinates of the image. -/
def TileLayout.bounds (l : TileLayout) : Viewport := .ofSize l.width l.height

/-- The part of the image that a region of interest selects: all of it without one, nothing when
they are disjoint. -/
def TileLayout.area? (l : TileLayout) (roi : Option Viewport) : Option Viewport :=
  match roi with
  | some roi => roi.intersect? l.bounds
  | none => some l.bounds

/-- Whether a tile meets an area of the image. -/
def Viewport.meetsTile (area : Viewport) (tileX tileY : Nat) : Bool :=
  area.minX / tileEdge ≤ tileX && tileX ≤ area.maxX / tileEdge &&
    area.minY / tileEdge ≤ tileY && tileY ≤ area.maxY / tileEdge

/-- The square of the distance between two pixels. -/
def squaredDistance (p q : Nat × Nat) : Nat :=
  let across := ((p.1 : Int) - q.1).natAbs
  let along := ((p.2 : Int) - q.2).natAbs
  across * across + along * along

/-- The slot of a list that is nearest to a pixel, the first one of several. -/
def TileLayout.nearest? (l : TileLayout) (p : Nat × Nat) (slots : List Nat) : Option Nat :=
  slots.foldl
    (fun best slot => match best with
      | none => some slot
      | some b => if squaredDistance (l.pixelOf slot) p < squaredDistance (l.pixelOf b) p then some slot else some b)
    none

namespace Channel

/-- Whether a slot belongs to the image and has data. -/
def isCovered (c : Channel) (slot : Nat) : Bool :=
  let p := c.layout.pixelOf slot
  c.layout.inImage p.1 p.2 && c.mask.isSlotSet slot

/-- The slots of a tile that have data. -/
def coveredSlots (c : Channel) (tile : Nat) : List Nat :=
  ((List.range tileSlots).map (tile * tileSlots + ·)).filter c.isCovered

/-- The slot whose values a slot takes over, if it takes over any. -/
def fillSource? (c : Channel) (area : Viewport) (slot : Nat) : Option Nat :=
  let p := c.layout.pixelOf slot
  if c.layout.inImage p.1 p.2 && !c.mask.isSlotSet slot && area.meetsTile (p.1 / tileEdge) (p.2 / tileEdge) then
    c.layout.nearest? p (c.coveredSlots (slot / tileSlots))
  else none

/-- Gives each pixel without data, in the tiles that meet the region of interest, the values of the
nearest pixel with data in its tile. -/
def extrapolate (c : Channel) (roi : Option Viewport) : Channel :=
  match c.layout.area? roi with
  | none => c
  | some area =>
    let sources := (Array.range c.layout.capacity).map (c.fillSource? area)
    { c with
      data := c.data.mapIdx fun k value =>
        match sources.getD (k / c.numChan) none with
        | some source => c.data.getD (source * c.numChan + k % c.numChan) value
        | none => value }

@[simp] theorem size_data_extrapolate (c : Channel) (roi : Option Viewport) :
    (c.extrapolate roi).data.size = c.data.size := by
  unfold extrapolate; split <;> simp

end Channel

end ProgressiveFrame
