import ProgressiveFrame.Channel.Readout
import ProgressiveFrame.Sample

/-!
# Images

An image is a rectangle of colours with row 0 at the bottom. Two images count as the same when no
component differs by more than `pixelTolerance`. `RgbImage.mergeInto` accumulates an image and its
ray counts into another one.
-/

namespace ProgressiveFrame

/-- A rectangle of colours, row by row from the bottom. -/
structure RgbImage where
  width : Nat
  height : Nat
  pixels : Array (Rgb Binary32)
deriving DecidableEq, Inhabited

/-- The largest difference of two components that counts as none. -/
def pixelTolerance : Binary32 := Scalar.ratio 5 100 / Scalar.ofNat 255

namespace RgbImage

/-- The image that a function of the pixel gives. -/
def ofFn (width height : Nat) (f : Nat → Nat → Rgb Binary32) : RgbImage :=
  ⟨width, height, (Array.range (width * height)).map fun k => f (k % width) (k / width)⟩

/-- The black image. -/
def black (width height : Nat) : RgbImage := ⟨width, height, Array.replicate (width * height) (.uniform .zero)⟩

/-- The place of a pixel. -/
def offset (i : RgbImage) (x y : Nat) : Nat := y * i.width + x

/-- The colour of a pixel. -/
def pixel? (i : RgbImage) (x y : Nat) : Option (Rgb Binary32) := i.pixels[i.offset x y]?

/-- The image with one pixel replaced. -/
def setPixel (i : RgbImage) (x y : Nat) (c : Rgb Binary32) : RgbImage :=
  { i with pixels := i.pixels.setIfInBounds (i.offset x y) c }

/-- The width and the height. -/
def size (i : RgbImage) : Nat × Nat := (i.width, i.height)

/-- Whether the images are of one size. -/
def sameSize (i j : RgbImage) : Bool := i.width == j.width && i.height == j.height

/-- Whether two components differ by no more than the tolerance. -/
def closeTo (a b : Binary32) : Bool := Scalar.le (a - b).abs pixelTolerance

/-- Whether the images are of one size and close to each other in each component. -/
def isSame (i j : RgbImage) : Bool :=
  i.sameSize j && (i.pixels.zip j.pixels).all fun p => p.1.all₂ closeTo p.2

/-- The largest red component, zero when there is none above it. Of zeros of either sign the last one
counts. -/
def maxRed (i : RgbImage) : Binary32 := i.pixels.foldl (fun m c => Scalar.max m c.r) .zero

/-- The first three values of each pixel of a readout from the bottom row up. -/
def ofReadout (r : Readout) : Except FrameError RgbImage :=
  let expected := r.width * r.height * r.numChan
  if r.numChan < 3 then .error (.dimensionMismatch .readoutChannelCount 3 r.numChan)
  else if r.data.size ≠ expected then .error (.dimensionMismatch .readoutValueCount expected r.data.size)
  else
    let value (k : Nat) := r.data.getD k .zero
    .ok <| ofFn r.width r.height fun x y =>
      let start := (y * r.width + x) * r.numChan
      ⟨value start, value (start + 1), value (start + 2)⟩

/-- The components of all pixels in order. -/
def interleaved (i : RgbImage) : Array Binary32 := i.pixels.flatMap fun c => #[c.r, c.g, c.b]

/-- The image of the same size with these components. -/
def withInterleaved (i : RgbImage) (values : Array Binary32) : RgbImage :=
  { i with
    pixels := i.pixels.mapIdx fun k c =>
      ⟨values.getD (3 * k) c.r, values.getD (3 * k + 1) c.g, values.getD (3 * k + 2) c.b⟩ }

/-- The red components, which hold the ray counts of a count image. -/
def counts (i : RgbImage) : Array Binary32 := i.pixels.map (·.r)

/-- The image of the same size whose components are these counts. -/
def withCounts (i : RgbImage) (counts : Array Binary32) : RgbImage :=
  { i with pixels := i.pixels.mapIdx fun k c => .uniform (counts.getD k c.r) }

/-- Accumulates colours and ray counts. All four images have to be of one size. -/
def mergeInto (accColor accCount color count : RgbImage) : Except FrameError (RgbImage × RgbImage) :=
  match [accCount, color, count].find? fun other => !accColor.sameSize other with
  | some other => .error (.layoutMismatch accColor.size other.size)
  | none => do
    let acc : Weighted Binary32 := ⟨accColor.interleaved, accCount.counts⟩
    let merged ← acc.blend ⟨color.interleaved, count.counts⟩ 3
    return (accColor.withInterleaved merged.values, accCount.withCounts merged.counts)

@[simp] theorem size_pixels_ofFn (width height : Nat) (f : Nat → Nat → Rgb Binary32) :
    (ofFn width height f).pixels.size = width * height := by simp [ofFn]

@[simp] theorem size_pixels_black (width height : Nat) : (black width height).pixels.size = width * height := by
  simp [black]

theorem sameSize_iff {i j : RgbImage} : i.sameSize j = true ↔ i.size = j.size := by simp [sameSize, size]

theorem pixel?_ofFn (width height : Nat) (f : Nat → Nat → Rgb Binary32) {x y : Nat} (hx : x < width) (hy : y < height) :
    (ofFn width height f).pixel? x y = some (f x y) := by
  have hlt : y * width + x < width * height := by
    have h := Nat.mul_le_mul_right width (Nat.succ_le_of_lt hy)
    rw [Nat.succ_mul, Nat.mul_comm height] at h
    omega
  have hmod : (y * width + x) % width = x := by rw [Nat.mul_comm, Nat.mul_add_mod, Nat.mod_eq_of_lt hx]
  have hdiv : (y * width + x) / width = y := by
    rw [Nat.mul_comm, Nat.mul_add_div (by omega), Nat.div_eq_of_lt hx, Nat.add_zero]
  simp [pixel?, ofFn, offset, hlt, hmod, hdiv]

end RgbImage

end ProgressiveFrame
