import ProgressiveFrame.Error
import ProgressiveFrame.Tile.Layout

/-!
# Pixel masks

The set of pixels of an image that carry data, as one bit for each slot of the layout. The slots
are listed in ascending order (`PixelMask.activeSlots`), and an update packs its values in that
order: the value of a slot stands at its rank, the number of active slots below it.
-/

namespace ProgressiveFrame

/-- A set of pixels of a tiled image. -/
structure PixelMask where
  layout : TileLayout
  /-- One bit for each slot. -/
  bits : Array Bool
deriving DecidableEq, Inhabited

namespace PixelMask

/-- The set without a pixel. -/
def empty (layout : TileLayout) : PixelMask := ⟨layout, Array.replicate layout.capacity false⟩

/-- Whether a slot is active. -/
def isSlotSet (m : PixelMask) (slot : Nat) : Bool := m.bits.getD slot false

/-- Whether a pixel is in the set. -/
def isSet (m : PixelMask) (x y : Nat) : Bool := m.layout.inImage x y && m.isSlotSet (m.layout.slot x y)

/-- The set with one pixel more. A pixel outside the image changes nothing. -/
def set (m : PixelMask) (x y : Nat) : PixelMask :=
  if m.layout.inImage x y then { m with bits := m.bits.setIfInBounds (m.layout.slot x y) true } else m

/-- The set with the pixels of a list. -/
def setAll (m : PixelMask) (pixels : List (Nat × Nat)) : PixelMask :=
  pixels.foldl (fun m p => m.set p.1 p.2) m

/-- Every pixel of the image. -/
def full (layout : TileLayout) : PixelMask :=
  (empty layout).setAll
    ((List.range layout.height).flatMap fun y => (List.range layout.width).map fun x => (x, y))

/-- Whether no slot is active. -/
def isEmpty (m : PixelMask) : Bool := !m.bits.contains true

/-- The number of active slots. -/
def activeCount (m : PixelMask) : Nat := m.bits.count true

/-- The active slots in ascending order. -/
def activeSlots (m : PixelMask) : List Nat := (List.range m.bits.size).filter m.isSlotSet

/-- The number of active slots below each slot. -/
def ranks (m : PixelMask) : Array Nat :=
  (m.bits.foldl (fun (acc : Array Nat × Nat) bit => (acc.1.push acc.2, if bit then acc.2 + 1 else acc.2))
    (#[], 0)).1

/-- The union with a set of the same layout. -/
def merge (m other : PixelMask) : Except FrameError PixelMask :=
  if m.layout = other.layout then
    .ok { m with bits := m.bits.mapIdx fun slot bit => bit || other.isSlotSet slot }
  else .error (.layoutMismatch m.layout.size other.layout.size)

/-- The empty set of the same layout. -/
def clear (m : PixelMask) : PixelMask := { m with bits := m.bits.map fun _ => false }

@[simp] theorem layout_empty (l : TileLayout) : (empty l).layout = l := rfl

@[simp] theorem layout_set (m : PixelMask) (x y : Nat) : (m.set x y).layout = m.layout := by
  unfold set; split <;> rfl

@[simp] theorem layout_clear (m : PixelMask) : m.clear.layout = m.layout := rfl

@[simp] theorem size_bits_empty (l : TileLayout) : (empty l).bits.size = l.capacity := by simp [empty]

@[simp] theorem size_bits_set (m : PixelMask) (x y : Nat) : (m.set x y).bits.size = m.bits.size := by
  unfold set; split <;> simp

@[simp] theorem size_bits_clear (m : PixelMask) : m.clear.bits.size = m.bits.size := by simp [clear]

@[simp] theorem isSlotSet_empty (l : TileLayout) (slot : Nat) : (empty l).isSlotSet slot = false := by
  simp only [isSlotSet, empty, Array.getD_eq_getD_getElem?, Array.getElem?_replicate]
  split <;> rfl

@[simp] theorem isSlotSet_clear (m : PixelMask) (slot : Nat) : m.clear.isSlotSet slot = false := by
  simp only [isSlotSet, clear, Array.getD_eq_getD_getElem?, Array.getElem?_map]
  cases m.bits[slot]? <;> rfl

theorem mem_activeSlots {m : PixelMask} {slot : Nat} : slot ∈ m.activeSlots ↔ m.isSlotSet slot = true := by
  simp only [activeSlots, List.mem_filter, List.mem_range, and_iff_right_iff_imp]
  intro h
  rw [isSlotSet, Array.getD_eq_getD_getElem?] at h
  grind

theorem layout_of_merge {m n r : PixelMask} (h : m.merge n = .ok r) : r.layout = m.layout := by grind [merge]

end PixelMask

end ProgressiveFrame
