import ProgressiveFrame.Channel.Extrapolate

/-!
# Readouts

A readout is a copy of some of the values of a channel in rows of pixels, from the bottom row up
or from the top row down.
-/

namespace ProgressiveFrame

/-- The order of the rows of a readout. -/
inductive Orientation where
  | bottomUp
  | topDown
deriving DecidableEq, Inhabited

/-- The names of the row orders. -/
def Orientation.names : List (String × Orientation) := [("bottom-up", .bottomUp), ("top-down", .topDown)]

/-- Rows of pixels with `numChan` values each. -/
structure Readout where
  width : Nat
  height : Nat
  numChan : Nat
  data : Array Binary32
deriving DecidableEq, Inhabited

/-- The line of the image that a row of a readout shows. -/
def Orientation.line (o : Orientation) (area : Viewport) (row : Nat) : Int :=
  match o with
  | .bottomUp => area.minY + row
  | .topDown => area.maxY - row

namespace Channel

/-- Value `k` of a readout of `area` with `count` values for each pixel, from value `first` of the
channel on. -/
def readValue (c : Channel) (o : Orientation) (area : Viewport) (first count k : Nat) : Binary32 :=
  let pixel := k / count
  let x := area.minX + (pixel % area.width : Nat)
  let y := o.line area (pixel / area.width)
  c.data.getD (c.layout.slot x.toNat y.toNat * c.numChan + first + k % count) .zero

/-- The values `first` to `last - 1` of each pixel of the region of interest, which is in coordinates
of the image. -/
def untile (c : Channel) (o : Orientation) (roi : Option Viewport) (first last : Nat) : Readout :=
  let first := min first c.numChan
  let count := min last c.numChan - first
  match c.layout.area? roi with
  | none => ⟨0, 0, count, #[]⟩
  | some area =>
    ⟨area.width, area.height, count,
      (Array.range (area.width * area.height * count)).map (c.readValue o area first count)⟩

/-- A readout holds as many values as its size and its number of values for each pixel say. -/
theorem size_data_untile (c : Channel) (o : Orientation) (roi : Option Viewport) (first last : Nat) :
    (c.untile o roi first last).data.size =
      (c.untile o roi first last).width * (c.untile o roi first last).height *
        (c.untile o roi first last).numChan := by
  unfold untile
  split <;> simp

end Channel

end ProgressiveFrame
