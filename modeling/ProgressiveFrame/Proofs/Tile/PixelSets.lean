import ProgressiveFrame.Proofs.Bounds.Blend
import ProgressiveFrame.Proofs.Tile.Addressing

/-!
# Masks are sets of pixels

A mask that comes about by the operations on masks is nothing but the set of its pixels: the padding of the tiles at the
edge never has a bit set, so the layout and the pixels tell all bits.

* `PixelMask.pixels`: the set of pixels of a mask.
* `PixelMask.Represents`: the bits, the counts and the slots of a mask are those of a set. `Made.represents`: every mask
  that is made represents its pixels, and `Represents.eq`: no two masks of a layout represent one set.
* `pixels_set`, `pixels_setAll`, `pixels_full`, `pixels_merge`, `pixels_clear`: what the operations do to the set.
* `PixelMask.mergeInPlace`: a merge that writes over the mask, bit by bit.
* `PixelMask.SetLaws`: the laws of sets, for masks. `PixelMask.made_setLaws`: all masks that are made obey them.
-/

namespace ProgressiveFrame

namespace PixelMask

variable {m n k r : PixelMask} {l : TileLayout} {s t : Finset (Nat × Nat)}

/-- The pixels of a mask. -/
def pixels (m : PixelMask) : Finset (Nat × Nat) := m.layout.image.filter fun p => m.isSet p.1 p.2

theorem mem_pixels {x y : Nat} : (x, y) ∈ m.pixels ↔ m.isSet x y = true := by
  rw [pixels, Finset.mem_filter, TileLayout.mem_image, and_iff_right_iff_imp]
  intro h
  exact (Bool.and_eq_true _ _ ▸ h).1

theorem pixels_subset (m : PixelMask) : m.pixels ⊆ m.layout.image := Finset.filter_subset _ _

/-- All that can be seen of a mask is as for a set of pixels of the image: which pixels and which slots are active, how
many there are, and their list. -/
structure Represents (m : PixelMask) (s : Finset (Nat × Nat)) : Prop where
  subset : s ⊆ m.layout.image
  /-- There is one bit for each slot. -/
  size_bits : m.bits.size = m.layout.capacity
  isSet_iff : ∀ x y, m.isSet x y = true ↔ (x, y) ∈ s
  /-- No slot of the padding is active. -/
  isSlotSet_iff : ∀ slot, m.isSlotSet slot = true ↔ ∃ p ∈ s, m.layout.slot p.1 p.2 = slot
  isEmpty_iff : m.isEmpty = true ↔ s = ∅
  activeCount : m.activeCount = s.card
  /-- The list of the active slots ascends, so it names none of them twice. -/
  ascending : m.activeSlots.Pairwise (· < ·)
  mem_activeSlots : ∀ slot, slot ∈ m.activeSlots ↔ ∃ p ∈ s, m.layout.slot p.1 p.2 = slot

theorem ascending_activeSlots (m : PixelMask) : m.activeSlots.Pairwise (· < ·) := List.pairwise_lt_range.filter _

theorem Sound.isSlotSet_iff (h : m.Sound) {slot : Nat} :
    m.isSlotSet slot = true ↔ ∃ p ∈ m.pixels, m.layout.slot p.1 p.2 = slot := by
  constructor
  · intro hset
    obtain ⟨x, y, hin, rfl⟩ := h.inImage slot hset
    refine ⟨(x, y), mem_pixels.mpr ?_, rfl⟩
    rw [isSet, hin, hset]
    rfl
  · rintro ⟨⟨x, y⟩, hp, rfl⟩
    have hset := mem_pixels.mp hp
    rw [isSet, Bool.and_eq_true] at hset
    exact hset.2

/-- The active slots are those of the pixels. -/
theorem Sound.toFinset_activeSlots (h : m.Sound) :
    m.activeSlots.toFinset = m.pixels.image fun p => m.layout.slot p.1 p.2 := by
  ext slot
  rw [List.mem_toFinset, PixelMask.mem_activeSlots, h.isSlotSet_iff, Finset.mem_image]

theorem Sound.activeCount_eq (h : m.Sound) : m.activeCount = m.pixels.card := by
  have hnodup : m.activeSlots.Nodup := m.ascending_activeSlots.imp Nat.ne_of_lt
  have hinj : Set.InjOn (fun p : Nat × Nat => m.layout.slot p.1 p.2) m.pixels :=
    m.layout.slot_injOn.mono (Finset.coe_subset.mpr m.pixels_subset)
  rw [← length_activeSlots, ← List.toFinset_card_of_nodup hnodup, h.toFinset_activeSlots,
    Finset.card_image_of_injOn hinj]

theorem isEmpty_iff (m : PixelMask) : m.isEmpty = true ↔ m.activeCount = 0 := by
  unfold isEmpty activeCount
  rw [Array.count_eq_zero, Bool.not_eq_true', ← Bool.not_eq_true, Array.contains_iff_mem]

theorem Sound.represents (h : m.Sound) : m.Represents m.pixels where
  subset := m.pixels_subset
  size_bits := h.size_bits
  isSet_iff _ _ := mem_pixels.symm
  isSlotSet_iff _ := h.isSlotSet_iff
  isEmpty_iff := by rw [m.isEmpty_iff, h.activeCount_eq, Finset.card_eq_zero]
  activeCount := h.activeCount_eq
  ascending := m.ascending_activeSlots
  mem_activeSlots _ := PixelMask.mem_activeSlots.trans h.isSlotSet_iff

/-- Every mask that is made represents its pixels. -/
theorem Made.represents (h : m.Made) : m.Represents m.pixels := h.sound.represents

/-- The layout and the set tell the mask. -/
theorem Represents.eq (hm : m.Represents s) (hn : n.Represents s) (hlayout : m.layout = n.layout) : m = n := by
  have hbits : m.bits = n.bits := by
    refine Array.ext (by rw [hm.size_bits, hn.size_bits, hlayout]) fun slot h h' => ?_
    have hslot : m.isSlotSet slot = n.isSlotSet slot := by
      rw [Bool.eq_iff_iff, hm.isSlotSet_iff, hn.isSlotSet_iff, hlayout]
    simpa [isSlotSet, h, h'] using hslot
  cases m
  cases n
  cases hlayout
  cases hbits
  rfl

/-! ## What the operations do to the set -/

@[simp] theorem pixels_empty (l : TileLayout) : (empty l).pixels = ∅ := by
  ext ⟨x, y⟩
  simp [mem_pixels, isSet]

@[simp] theorem pixels_clear (m : PixelMask) : m.clear.pixels = ∅ := by
  ext ⟨x, y⟩
  simp [mem_pixels, isSet]

theorem set_of_not_inImage {x y : Nat} (h : m.layout.inImage x y = false) : m.set x y = m := by
  unfold PixelMask.set
  rw [h]
  rfl

theorem Sound.pixels_set (h : m.Sound) (x y : Nat) :
    (m.set x y).pixels = if m.layout.inImage x y then insert (x, y) m.pixels else m.pixels := by
  by_cases hin : m.layout.inImage x y = true
  · have hlt : m.layout.slot x y < m.bits.size := h.size_bits ▸ TileLayout.slot_lt_capacity hin
    rw [if_pos hin]
    ext ⟨x', y'⟩
    rw [Finset.mem_insert, mem_pixels, mem_pixels, isSet, isSet, layout_set, Prod.mk.injEq]
    unfold PixelMask.set
    rw [if_pos hin]
    by_cases hin' : m.layout.inImage x' y' = true
    · by_cases hslot : m.layout.slot x y = m.layout.slot x' y'
      · have hpixel : (x, y) = (x', y') :=
          m.layout.slot_injOn (TileLayout.mem_image.mpr hin) (TileLayout.mem_image.mpr hin') hslot
        obtain ⟨rfl, rfl⟩ := Prod.mk.inj hpixel
        simp [isSlotSet, hin, hlt]
      · have hne : ¬(x' = x ∧ y' = y) := by
          rintro ⟨rfl, rfl⟩
          exact hslot rfl
        simp [isSlotSet, hin', hne, Array.getD_eq_getD_getElem?, Array.getElem?_setIfInBounds_ne hslot]
    · have hne : ¬(x' = x ∧ y' = y) := by
        rintro ⟨rfl, rfl⟩
        exact hin' hin
      simp [hin', hne]
  · rw [if_neg hin, set_of_not_inImage (Bool.not_eq_true _ ▸ hin)]

theorem layout_setAll (m : PixelMask) (ps : List (Nat × Nat)) : (m.setAll ps).layout = m.layout := by
  induction ps generalizing m with
  | nil => rfl
  | cons p ps ih => exact (ih (m.set p.1 p.2)).trans (layout_set ..)

/-- Pixels of a list are added where they are in the image. -/
theorem Sound.pixels_setAll (h : m.Sound) (ps : List (Nat × Nat)) :
    (m.setAll ps).pixels = m.pixels ∪ ps.toFinset ∩ m.layout.image := by
  induction ps generalizing m with
  | nil =>
    rw [List.toFinset_nil, Finset.empty_inter, Finset.union_empty]
    rfl
  | cons p ps ih =>
    have hstep : m.setAll (p :: ps) = (m.set p.1 p.2).setAll ps := rfl
    rw [hstep, ih (h.set p.1 p.2), h.pixels_set, layout_set, List.toFinset_cons]
    by_cases hin : m.layout.inImage p.1 p.2 = true
    · rw [if_pos hin, Finset.insert_inter_of_mem (TileLayout.mem_image.mpr hin), Finset.insert_union,
        Finset.union_insert]
    · rw [if_neg hin, Finset.insert_inter_of_notMem fun hmem => hin (TileLayout.mem_image.mp hmem)]

/-- Every pixel of the image is in the full mask. -/
theorem pixels_full (l : TileLayout) : (full l).pixels = l.image := by
  unfold full
  rw [(sound_empty l).pixels_setAll, pixels_empty, Finset.empty_union, layout_empty, Finset.inter_eq_right]
  rintro ⟨x, y⟩ hp
  obtain ⟨hx, hy⟩ := TileLayout.inImage_iff.mp (TileLayout.mem_image.mp hp)
  simp only [List.mem_toFinset, List.mem_flatMap, List.mem_map, List.mem_range]
  exact ⟨y, hy, x, hx, rfl⟩

theorem exists_merge (hlayout : m.layout = n.layout) : ∃ r, m.merge n = .ok r := by
  unfold merge
  rw [if_pos hlayout]
  exact ⟨_, rfl⟩

theorem merge_of_layout_ne (hlayout : m.layout ≠ n.layout) :
    m.merge n = .error (.layoutMismatch m.layout.size n.layout.size) := if_neg hlayout

theorem layout_eq_of_merge (hr : m.merge n = .ok r) : m.layout = n.layout := by
  by_contra hlayout
  rw [merge_of_layout_ne hlayout] at hr
  cases hr

theorem Sound.pixels_merge (hm : m.Sound) (hr : m.merge n = .ok r) : r.pixels = m.pixels ∪ n.pixels := by
  have hlayout := layout_eq_of_merge hr
  ext ⟨x, y⟩
  rw [Finset.mem_union, mem_pixels, mem_pixels, mem_pixels, isSet, isSet, isSet, isSlotSet_of_merge hr,
    layout_of_merge hr, ← hlayout]
  by_cases hin : m.layout.inImage x y = true
  · have hlt : m.layout.slot x y < m.bits.size := hm.size_bits ▸ TileLayout.slot_lt_capacity hin
    simp [hin, hlt]
  · simp [hin]

/-! ## Merging in place -/

/-- A merge that writes over the mask: the layouts are compared, and then the bits of the other mask are set one after
another. -/
def mergeInPlace (m other : PixelMask) : PixelMask × Except FrameError Unit :=
  if m.layout = other.layout then
    ({ m with bits := other.activeSlots.foldl (fun bits slot => bits.setIfInBounds slot true) m.bits }, .ok ())
  else (m, .error (.layoutMismatch m.layout.size other.layout.size))

theorem getElem?_foldl_set (slots : List Nat) (bits : Array Bool) (i : Nat) :
    (slots.foldl (fun bits slot => bits.setIfInBounds slot true) bits)[i]? =
      bits[i]?.map fun bit => bit || slots.contains i := by
  induction slots generalizing bits with
  | nil => simp
  | cons slot slots ih =>
    rw [List.foldl_cons, ih, List.contains_cons]
    by_cases hslot : slot = i
    · subst hslot
      by_cases hlt : slot < bits.size
      · simp [hlt]
      · simp [hlt]
    · have hne : (i == slot) = false := beq_false_of_ne (Ne.symm hslot)
      rw [Array.getElem?_setIfInBounds_ne hslot, hne, Bool.false_or]

/-- Merging in place leaves the union, and leaves the mask as it is where the merge is refused. -/
theorem mergeInPlace_eq (m other : PixelMask) : m.mergeInPlace other = inPlace m (m.merge other) := by
  unfold mergeInPlace merge
  by_cases hlayout : m.layout = other.layout
  · have hbits : other.activeSlots.foldl (fun bits slot => bits.setIfInBounds slot true) m.bits =
        m.bits.mapIdx fun slot bit => bit || other.isSlotSet slot := by
      refine Array.ext_getElem? fun i => ?_
      have hcontains : other.activeSlots.contains i = other.isSlotSet i := by
        rw [Bool.eq_iff_iff, List.contains_iff_mem, mem_activeSlots]
      rw [getElem?_foldl_set, Array.getElem?_mapIdx, hcontains]
    rw [if_pos hlayout, if_pos hlayout, hbits]
    rfl
  · rw [if_neg hlayout, if_neg hlayout]
    rfl

/-! ## The laws of sets -/

theorem Made.setAll (h : m.Made) (ps : List (Nat × Nat)) : (m.setAll ps).Made := by
  induction ps generalizing m with
  | nil => exact h
  | cons p ps ih => exact ih (h.set p.1 p.2)

/-- Masks of one layout are the same if they have the same pixels. -/
theorem Made.eq_of_pixels (hm : m.Made) (hn : n.Made) (hlayout : m.layout = n.layout) (hpixels : m.pixels = n.pixels) :
    m = n :=
  hm.represents.eq (hpixels ▸ hn.represents) hlayout

/-- Merging gives the mask of the union. -/
theorem Made.merge_eq_ok_iff (hm : m.Made) (hn : n.Made) (hr : r.Made) (hlayout : m.layout = n.layout) :
    m.merge n = .ok r ↔ r.layout = m.layout ∧ r.pixels = m.pixels ∪ n.pixels := by
  constructor
  · intro h
    exact ⟨layout_of_merge h, hm.sound.pixels_merge h⟩
  · rintro ⟨hrlayout, hrpixels⟩
    obtain ⟨u, hu⟩ := exists_merge hlayout
    have hpixels : u.pixels = r.pixels := (hm.sound.pixels_merge hu).trans hrpixels.symm
    rw [hu, (hm.merge hn hu).eq_of_pixels hr ((layout_of_merge hu).trans hrlayout.symm) hpixels]

/-- What holds of three masks as it does of three sets. -/
structure SetLaws (m n k : PixelMask) : Prop where
  represents : m.Represents m.pixels
  eq_iff : m = n ↔ m.layout = n.layout ∧ ∀ x y, m.isSet x y = n.isSet x y
  set_eq_insert : ∀ x y, m.layout.inImage x y = true → (m.set x y).pixels = insert (x, y) m.pixels
  set_outside : ∀ x y, m.layout.inImage x y = false → m.set x y = m
  /-- Neither the order of pixels that are added matters nor how often they are. -/
  setAll_congr : ∀ ps qs : List (Nat × Nat), (∀ p, p ∈ ps ↔ p ∈ qs) → m.setAll ps = m.setAll qs
  clear_eq_empty : m.clear = empty m.layout
  merge_eq_union : m.layout = n.layout → ∃ r, m.merge n = .ok r ∧ r.layout = m.layout ∧ r.pixels = m.pixels ∪ n.pixels
  merge_comm : m.layout = n.layout → m.merge n = n.merge m
  merge_assoc : m.layout = n.layout → n.layout = k.layout →
    (m.merge n >>= fun r => r.merge k) = (n.merge k >>= fun r => m.merge r)
  merge_self : m.merge m = .ok m
  merge_empty : m.merge (empty m.layout) = .ok m ∧ (empty m.layout).merge m = .ok m
  merge_refused : m.layout ≠ n.layout → m.merge n = .error (.layoutMismatch m.layout.size n.layout.size)
  /-- The merge in place has the same result. When it is refused, the mask stays as it was. -/
  inPlace : m.mergeInPlace n = inPlace m (m.merge n)

theorem Made.setLaws (hm : m.Made) (hn : n.Made) (hk : k.Made) : SetLaws m n k where
  represents := hm.represents
  eq_iff := by
    constructor
    · rintro rfl
      exact ⟨rfl, fun _ _ => rfl⟩
    · rintro ⟨hlayout, hset⟩
      refine hm.eq_of_pixels hn hlayout ?_
      ext ⟨x, y⟩
      rw [mem_pixels, mem_pixels, hset]
  set_eq_insert x y hin := by rw [hm.sound.pixels_set, if_pos hin]
  set_outside _ _ := set_of_not_inImage
  setAll_congr ps qs h := by
    have hlists : ps.toFinset = qs.toFinset := by
      ext p
      rw [List.mem_toFinset, List.mem_toFinset, h]
    refine (hm.setAll ps).eq_of_pixels (hm.setAll qs) (by rw [layout_setAll, layout_setAll]) ?_
    rw [hm.sound.pixels_setAll, hm.sound.pixels_setAll, hlists]
  clear_eq_empty := hm.clear.eq_of_pixels (.empty _) rfl (by rw [pixels_clear, pixels_empty])
  merge_eq_union hlayout := by
    obtain ⟨r, hr⟩ := exists_merge hlayout
    exact ⟨r, hr, layout_of_merge hr, hm.sound.pixels_merge hr⟩
  merge_comm hlayout := by
    obtain ⟨r, hr⟩ := exists_merge hlayout.symm
    rw [hr, hm.merge_eq_ok_iff hn (hn.merge hm hr) hlayout, hn.sound.pixels_merge hr, Finset.union_comm]
    exact ⟨(layout_of_merge hr).trans hlayout.symm, rfl⟩
  merge_assoc hlayout hlayout' := by
    obtain ⟨r, hr⟩ := exists_merge hlayout
    obtain ⟨u, hu⟩ := exists_merge hlayout'
    have hrlayout : r.layout = k.layout := (layout_of_merge hr).trans (hlayout.trans hlayout')
    have hulayout : m.layout = u.layout := hlayout.trans (layout_of_merge hu).symm
    obtain ⟨v, hv⟩ := exists_merge hulayout
    have hv' : r.merge k = .ok v := by
      rw [(hm.merge hn hr).merge_eq_ok_iff hk (hm.merge (hn.merge hk hu) hv) hrlayout, hm.sound.pixels_merge hv,
        hn.sound.pixels_merge hu, hm.sound.pixels_merge hr, Finset.union_assoc]
      exact ⟨(layout_of_merge hv).trans (layout_of_merge hr).symm, rfl⟩
    rw [hr, hu]
    exact hv'.trans hv.symm
  merge_self := by
    rw [hm.merge_eq_ok_iff hm hm rfl, Finset.union_self]
    exact ⟨rfl, rfl⟩
  merge_empty := by
    have hempty := Made.empty m.layout
    rw [hm.merge_eq_ok_iff hempty hm rfl, hempty.merge_eq_ok_iff hm hm rfl, pixels_empty, Finset.union_empty,
      Finset.empty_union]
    exact ⟨⟨rfl, rfl⟩, rfl, rfl⟩
  merge_refused := merge_of_layout_ne
  inPlace := mergeInPlace_eq m n

/-- Each set of pixels of an image is made. -/
theorem exists_made (hs : s ⊆ l.image) : ∃ m : PixelMask, m.Made ∧ m.layout = l ∧ m.pixels = s := by
  refine ⟨(empty l).setAll s.toList, (Made.empty l).setAll _, layout_setAll .., ?_⟩
  rw [(sound_empty l).pixels_setAll, pixels_empty, Finset.empty_union, layout_empty, Finset.toList_toFinset,
    Finset.inter_eq_left.mpr hs]

/-- Masks are just the sets of pixels of their images. For each layout there is one mask that is made for each set of
pixels of the image, none for the empty set and the full mask, with as many pixels as the image has, for the greatest
one. What the operations do to masks they do to the sets. -/
theorem made_setLaws :
    (∀ l : TileLayout, (empty l).pixels = ∅ ∧ (full l).pixels = l.image ∧ (full l).activeCount = l.width * l.height ∧
      ∀ s ⊆ l.image, ∃! m : PixelMask, m.Made ∧ m.layout = l ∧ m.pixels = s) ∧
    ∀ m n k : PixelMask, m.Made → n.Made → k.Made → SetLaws m n k := by
  refine ⟨fun l => ⟨pixels_empty l, pixels_full l, ?_, fun s hs => ?_⟩, fun m n k hm hn hk => hm.setLaws hn hk⟩
  · rw [(Made.full l).represents.activeCount, pixels_full, TileLayout.card_image]
  · obtain ⟨m, hm, hlayout, hpixels⟩ := exists_made hs
    refine ⟨m, ⟨hm, hlayout, hpixels⟩, ?_⟩
    rintro n ⟨hn, hnlayout, hnpixels⟩
    exact hn.eq_of_pixels hm (hnlayout.trans hlayout.symm) (hnpixels.trans hpixels.symm)

/-- An image of 10 by 9 pixels, whose tiles at the edges are padded. A pixel that is added twice counts once, and one in
the padding does not count; the last pixel has slot 193. A mask of another layout is not merged. -/
theorem made_setLaws_padded :
    let l : TileLayout := ⟨10, 9⟩
    let m := (empty l).setAll [(9, 8), (10, 0), (0, 3), (9, 8)]
    let other := empty ⟨16, 9⟩
    m = (empty l).setAll [(0, 3), (10, 0), (9, 8)] ∧ m.activeSlots = [24, 193] ∧
      m.merge (full l) = (full l).merge m ∧ (full l).activeCount = 90 ∧
      m.mergeInPlace other = (m, .error (.layoutMismatch (10, 9) (16, 9))) ∧
      ∃! m : PixelMask, m.Made ∧ m.layout = l ∧ m.pixels = {(9, 8)} := by
  intro l m other
  obtain ⟨hlayouts, hlaws⟩ := made_setLaws
  obtain ⟨-, -, hcount, hsets⟩ := hlayouts l
  have hempty : (empty l).Made := .empty l
  have hm : m.Made := hempty.setAll _
  have hfull : m.layout = (full l).layout := by rw [layout_setAll, full, layout_setAll]
  refine ⟨?_, by decide +kernel, (hlaws m (full l) m hm (.full l) hm).merge_comm hfull, hcount, ?_, ?_⟩
  · have hmembers (p : Nat × Nat) : p ∈ [(9, 8), (10, 0), (0, 3), (9, 8)] ↔ p ∈ [(0, 3), (10, 0), (9, 8)] := by
      clear * -
      grind
    exact (hlaws (empty l) (empty l) (empty l) hempty hempty hempty).setAll_congr _ _ hmembers
  · have hother := hlaws m other m hm (.empty _) hm
    rw [hother.inPlace, hother.merge_refused (by decide)]
    rfl
  · exact hsets {(9, 8)} (by decide)

end PixelMask

end ProgressiveFrame
