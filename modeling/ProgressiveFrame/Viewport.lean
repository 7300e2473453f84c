/-!
# Viewports

A viewport is a rectangle of pixels with whole coordinates; both corners belong to it. One whose
upper corner lies below or left of its lower corner is empty.
-/

namespace ProgressiveFrame

/-- The number that a word of 32 bits is when its highest bit stands for a sign. -/
def signedWord (n : Nat) : Int := if n < 0x80000000 then n else n - 0x100000000

/-- A number of fewer than 32 bits is read as itself. -/
theorem signedWord_of_lt {n : Nat} (h : n < 0x80000000) : signedWord n = n := if_pos h

/-- A closed rectangle of pixels. -/
structure Viewport where
  minX : Int
  minY : Int
  maxX : Int
  maxY : Int
deriving DecidableEq, Inhabited

namespace Viewport

/-- The one-pixel viewport at the origin. -/
def origin : Viewport := ⟨0, 0, 0, 0⟩

/-- The viewport of a size at the origin, where a size is a word of 32 bits that is read as a signed
one. -/
def ofSize (width height : Nat) : Viewport := ⟨0, 0, signedWord width - 1, signedWord height - 1⟩

/-- The number of pixels in a row. -/
def width (v : Viewport) : Nat := (v.maxX - v.minX + 1).toNat

/-- The number of pixels in a column. -/
def height (v : Viewport) : Nat := (v.maxY - v.minY + 1).toNat

/-- Whether the viewport has no pixel. -/
def isEmpty (v : Viewport) : Bool := v.width == 0 || v.height == 0

/-- Whether a pixel lies in the viewport. -/
def contains (v : Viewport) (x y : Int) : Bool :=
  v.minX ≤ x && x ≤ v.maxX && v.minY ≤ y && y ≤ v.maxY

/-- The pixels common to two viewports. -/
def common (v w : Viewport) : Viewport :=
  ⟨max v.minX w.minX, max v.minY w.minY, min v.maxX w.maxX, min v.maxY w.maxY⟩

/-- The pixels common to two viewports, if there are any. -/
def intersect? (v w : Viewport) : Option Viewport := if (v.common w).isEmpty then none else some (v.common w)

/-- The viewport in coordinates that start at the lower left corner of `base`. -/
def relativeTo (v base : Viewport) : Viewport :=
  ⟨v.minX - base.minX, v.minY - base.minY, v.maxX - base.minX, v.maxY - base.minY⟩

theorem ofSize_of_lt {width height : Nat} (hw : width < 0x80000000) (hh : height < 0x80000000) :
    ofSize width height = ⟨0, 0, width - 1, height - 1⟩ := by
  rw [ofSize, signedWord_of_lt hw, signedWord_of_lt hh]

theorem isEmpty_iff {v : Viewport} : v.isEmpty = true ↔ v.maxX < v.minX ∨ v.maxY < v.minY := by
  simp only [isEmpty, width, height, Bool.or_eq_true, beq_iff_eq]
  omega

theorem contains_common (v w : Viewport) (x y : Int) :
    (v.common w).contains x y = (v.contains x y && w.contains x y) := by
  rw [Bool.eq_iff_iff]
  grind [contains, common]

theorem contains_iff {v : Viewport} {x y : Int} :
    v.contains x y = true ↔ v.minX ≤ x ∧ x ≤ v.maxX ∧ v.minY ≤ y ∧ y ≤ v.maxY := by
  simp [contains, and_assoc]

@[simp] theorem width_relativeTo (v base : Viewport) : (v.relativeTo base).width = v.width := by
  simp only [width, relativeTo]
  omega

@[simp] theorem height_relativeTo (v base : Viewport) : (v.relativeTo base).height = v.height := by
  simp only [height, relativeTo]
  omega

end Viewport

end ProgressiveFrame
