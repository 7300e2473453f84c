import ProgressiveFrame.Proofs.Bounds.Slice

/-!
# Masks stay in their bits

A mask has a bit for each slot of its layout, and sets no bits but those of pixels of the image. So bits are where they
are looked for.

* `PixelMask.Made`: the masks that the operations on masks make.
* `PixelMask.Sound`: what they have in common. `Made.sound`: every mask that is made has it.
* `PixelMask.setChecked`, `isSetChecked`, `mergeChecked`: the operations, asking for each bit first, and the lemmas that
  they have the results of `set`, `isSet` and `merge`.
-/

namespace ProgressiveFrame.PixelMask

/-- The masks that come about from masks without a pixel or with all of them. -/
inductive Made : PixelMask → Prop where
  | empty (layout : TileLayout) : Made (.empty layout)
  | full (layout : TileLayout) : Made (.full layout)
  | set {m : PixelMask} (made : Made m) (x y : Nat) : Made (m.set x y)
  | merge {m other r : PixelMask} (made : Made m) (otherMade : Made other) (result : m.merge other = .ok r) : Made r
  | clear {m : PixelMask} (made : Made m) : Made m.clear

/-- There is a bit for each slot, and those that are set belong to pixels of the image. -/
structure Sound (m : PixelMask) : Prop where
  size_bits : m.bits.size = m.layout.capacity
  inImage : ∀ slot, m.isSlotSet slot = true → ∃ x y, m.layout.inImage x y = true ∧ slot = m.layout.slot x y

variable {m other r : PixelMask} {x y slot : Nat}

theorem sound_empty (layout : TileLayout) : (empty layout).Sound where
  size_bits := size_bits_empty layout
  inImage slot h := by simp at h

theorem Sound.set (h : m.Sound) (x y : Nat) : (m.set x y).Sound where
  size_bits := by rw [size_bits_set, layout_set, h.size_bits]
  inImage slot hset := by
    rw [layout_set]
    unfold PixelMask.set at hset
    split at hset
    · rename_i hin
      by_cases hslot : slot = m.layout.slot x y
      · exact ⟨x, y, hin, hslot⟩
      · refine h.inImage slot ?_
        rw [isSlotSet, Array.getD_eq_getD_getElem?, Array.getElem?_setIfInBounds_ne (Ne.symm hslot)] at hset
        rwa [isSlotSet, Array.getD_eq_getD_getElem?]
    · exact h.inImage slot hset

theorem Sound.setAll (h : m.Sound) (pixels : List (Nat × Nat)) : (m.setAll pixels).Sound := by
  induction pixels generalizing m with
  | nil => exact h
  | cons p pixels ih => exact ih (h.set p.1 p.2)

theorem Sound.merge (h : m.Sound) (ho : other.Sound) (hr : m.merge other = .ok r) : r.Sound := by
  have hlayout : m.layout = other.layout := by
    by_contra hne
    simp [PixelMask.merge, hne] at hr
  refine ⟨by rw [size_bits_of_merge hr, layout_of_merge hr, h.size_bits], fun slot hset => ?_⟩
  rw [isSlotSet_of_merge hr, Bool.or_eq_true, Bool.and_eq_true] at hset
  rw [layout_of_merge hr]
  rcases hset with hown | ⟨hother, -⟩
  · exact h.inImage slot hown
  · rw [hlayout]
    exact ho.inImage slot hother

theorem Sound.clear (h : m.Sound) : m.clear.Sound where
  size_bits := by rw [size_bits_clear, layout_clear, h.size_bits]
  inImage slot hset := by simp at hset

/-- Every mask that is made is sound. -/
theorem Made.sound (h : m.Made) : m.Sound := by
  induction h with
  | empty layout => exact sound_empty layout
  | full layout => exact (sound_empty layout).setAll _
  | set _ x y ih => exact ih.set x y
  | merge _ _ result ih ihOther => exact ih.merge ihOther result
  | clear _ ih => exact ih.clear

/-! ## Bits that are asked for first -/

/-- A pixel is added where there is a bit for it. -/
def setChecked (m : PixelMask) (x y : Nat) : Option PixelMask :=
  if m.layout.inImage x y then do
    let slot := m.layout.slot x y
    let bits ← writeSlice? m.bits slot (slot + 1) #[true]
    return { m with bits }
  else return m

/-- A pixel is looked up where there is a bit for it. -/
def isSetChecked (m : PixelMask) (x y : Nat) : Option Bool :=
  if m.layout.inImage x y then m.bits[m.layout.slot x y]? else some false

/-- The bits of another mask are set one after another. -/
def mergeChecked (m other : PixelMask) : Option (Except FrameError PixelMask) :=
  if m.layout = other.layout then do
    let bits ← other.activeSlots.foldlM (fun bits slot => writeSlice? bits slot (slot + 1) #[true]) m.bits
    return .ok { m with bits }
  else return .error (.layoutMismatch m.layout.size other.layout.size)

theorem Sound.setChecked_eq (h : m.Sound) (x y : Nat) : m.setChecked x y = some (m.set x y) := by
  rw [setChecked, PixelMask.set]
  split
  · rename_i hin
    have hlt : m.layout.slot x y < m.bits.size := h.size_bits ▸ TileLayout.slot_lt_capacity hin
    simp only [writeSlice?_one hlt]
    rfl
  · rfl

theorem Sound.isSetChecked_eq (h : m.Sound) (x y : Nat) : m.isSetChecked x y = some (m.isSet x y) := by
  rw [isSetChecked, isSet]
  cases hin : m.layout.inImage x y with
  | false => rfl
  | true =>
    have hlt : m.layout.slot x y < m.bits.size := h.size_bits ▸ TileLayout.slot_lt_capacity hin
    simp [isSlotSet, hlt]

theorem Sound.mergeChecked_eq (h : m.Sound) (ho : other.Sound) : m.mergeChecked other = some (m.merge other) := by
  rw [mergeChecked, PixelMask.merge]
  split
  · rename_i hlayout
    have hslotted : Slotted 1 m.layout.capacity m.bits (m.bits.mapIdx fun slot bit => bit || other.isSlotSet slot) :=
      ⟨by rw [h.size_bits, Nat.mul_one], by rw [Array.size_mapIdx, h.size_bits, Nat.mul_one]⟩
    have hloop : other.activeSlots.foldlM (fun bits slot => writeSlice? bits slot (slot + 1) #[true]) m.bits =
        some (m.bits.mapIdx fun slot bit => bit || other.isSlotSet slot) := by
      refine hslotted.foldlM_eq (fun slot => [slot]) (fun pre slot post hsplit => ?_) fun k hk hnot => ?_
      · have hset : other.isSlotSet slot = true := mem_activeSlots.mp (by rw [hsplit]; simp)
        have hslot : slot < m.layout.capacity := by
          rw [hlayout, ← ho.size_bits]
          exact lt_size_of_isSlotSet hset
        have hlt : slot < m.bits.size := h.size_bits ▸ hslot
        have hbit : m.bits[slot]? = some m.bits[slot] := Array.getElem?_eq_getElem _
        have hvalue : #[true] = (m.bits.mapIdx fun slot bit => bit || other.isSlotSet slot).extract (slot * 1)
            ((slot + 1) * 1) := by
          refine eq_extract_slot (by rw [hslotted.after]; omega) rfl fun j hj => ?_
          obtain rfl : j = 0 := by omega
          simp [hset, hbit]
        have hwrite := hslotted.writeSlice?_patched (pre.flatMap fun slot => [slot]) hslot hvalue
        rwa [Nat.mul_one, Nat.mul_one] at hwrite
      · rw [List.flatMap_singleton', Nat.div_one, mem_activeSlots] at hnot
        simp [hnot]
    rw [hloop]
    rfl
  · rfl

end ProgressiveFrame.PixelMask
