import Mathlib.Algebra.Ring.Int.Defs
import ProgressiveFrame.Proofs.Bounds.Fill

/-!
# A fill takes what is nearest

A fill assigns the pixels without data in the tiles that it visits, and each of them gets what stood in the nearest
pixel with data of its tile. Pixels with data are never assigned, and which they are is told by the coverage alone. So
it does not matter in which order tiles are filled, nor how often.

* `Channel.Fills`: what a fill for a region of interest does, told pixel by pixel.
* `TileLayout.nearest?_first`: what one pass over the pixels of a tile finds.
* `Channel.filled`: the fill of any set of tiles, as a way to look up values. `filled_filled`: two fills are the fill of
  the union.
* `extrapolate_nearest`: every fill is exact, and what follows for fills one after another.
-/

namespace ProgressiveFrame

/-! ## What a fill does -/

/-- Two pixels lie in the same tile. -/
def SameTile (p q : Nat × Nat) : Prop := p.1 / tileEdge = q.1 / tileEdge ∧ p.2 / tileEdge = q.2 / tileEdge

/-- The tile of a pixel has a pixel in common with the part of the image that a region of interest selects. -/
def TileLayout.Meets (l : TileLayout) (roi : Option Viewport) (p : Nat × Nat) : Prop :=
  ∃ q : Nat × Nat, l.inImage q.1 q.2 = true ∧ SameTile p q ∧ ∀ v, roi = some v → v.contains q.1 q.2 = true

namespace Channel

/-- A fill for a region of interest assigns a pixel: it is in the image, it has no data, its tile meets the region, and
some pixel of its tile has data. -/
structure Gains (c : Channel) (roi : Option Viewport) (p : Nat × Nat) : Prop where
  inImage : c.layout.inImage p.1 p.2 = true
  bare : c.mask.isSet p.1 p.2 = false
  meets : c.layout.Meets roi p
  supplied : ∃ q : Nat × Nat, c.mask.isSet q.1 q.2 = true ∧ SameTile p q

/-- Of the pixels with data in the tile of `p`, `q` is the nearest one by the squares of the distances, and of several
at the same distance the one in the lowest slot. -/
structure IsNearest (c : Channel) (p q : Nat × Nat) : Prop where
  covered : c.mask.isSet q.1 q.2 = true
  sameTile : SameTile p q
  first : ∀ r : Nat × Nat, c.mask.isSet r.1 r.2 = true → SameTile p r →
    ((q.1 : Int) - p.1) ^ 2 + ((q.2 : Int) - p.2) ^ 2 < ((r.1 : Int) - p.1) ^ 2 + ((r.2 : Int) - p.2) ^ 2 ∨
      ((q.1 : Int) - p.1) ^ 2 + ((q.2 : Int) - p.2) ^ 2 = ((r.1 : Int) - p.1) ^ 2 + ((r.2 : Int) - p.2) ^ 2 ∧
        c.layout.slot q.1 q.2 ≤ c.layout.slot r.1 r.2

/-- The second channel is the first one after a fill for a region of interest. -/
structure Fills (c : Channel) (roi : Option Viewport) (c' : Channel) : Prop where
  /-- A pixel that is assigned gets all that its nearest pixel with data had before. -/
  gained : ∀ p, c.Gains roi p → ∃ q, c.IsNearest p q ∧ c'.pixel? p.1 p.2 = c.pixel? q.1 q.2
  /-- Every value that belongs to no such pixel is what it was, in the image and in the padding. -/
  kept : ∀ k, (∀ p, c.Gains roi p → k / c.numChan ≠ c.layout.slot p.1 p.2) → c'.data[k]? = c.data[k]?
  /-- Coverage, ray counts and precision are what they were. -/
  rest : c' = { c with data := c'.data }

end Channel

/-! ## The first of the nearest -/

/-- The differences are squared as natural numbers, where their signs are gone. -/
theorem cast_squaredDistance (p q : Nat × Nat) :
    (squaredDistance p q : Int) = ((p.1 : Int) - q.1) ^ 2 + ((p.2 : Int) - q.2) ^ 2 := by
  rw [squaredDistance, Int.natCast_add, Int.natAbs_mul_self, Int.natAbs_mul_self, sq, sq]

namespace TileLayout

variable {l : TileLayout} {roi : Option Viewport} {area : Viewport} {p : Nat × Nat} {slots : List Nat}
  {slot other : Nat}

/-- The pixels of two slots are in the same tile if the slots are. -/
theorem sameTile_pixelOf : SameTile (l.pixelOf slot) (l.pixelOf other) ↔ slot / tileSlots = other / tileSlots := by
  rw [SameTile, (l.pixelOf_div slot).1, (l.pixelOf_div slot).2, (l.pixelOf_div other).1, (l.pixelOf_div other).2]
  constructor
  · rintro ⟨hcolumn, hrow⟩
    rw [← Nat.div_add_mod' (slot / tileSlots) l.tilesX, hcolumn, hrow, Nat.div_add_mod']
  · rintro h
    rw [h]
    exact ⟨rfl, rfl⟩

/-- Of an ascending list, the slot that is found is nearer than any other one, or as near and lower. -/
theorem nearest?_first (hsorted : slots.Pairwise (· < ·)) (h : l.nearest? p slots = some slot)
    (hother : other ∈ slots) :
    squaredDistance (l.pixelOf slot) p < squaredDistance (l.pixelOf other) p ∨
      squaredDistance (l.pixelOf slot) p = squaredDistance (l.pixelOf other) p ∧ slot ≤ other := by
  -- What the pass holds after some slots is the first of the nearest among these.
  induction slots using List.reverseRecOn generalizing slot other with
  | nil => cases hother
  | append_singleton slots last ih =>
    obtain ⟨hsorted, -, hlast⟩ := List.pairwise_append.mp hsorted
    rw [List.mem_append, List.mem_singleton] at hother
    rw [nearest?_concat] at h
    cases hbest : l.nearest? p slots with
    | none =>
      have hnil : slots = [] := by
        by_contra hne
        obtain ⟨best, hsome⟩ := l.exists_nearest? p hne
        cases hbest.symm.trans hsome
      rw [hbest, Option.some.injEq] at h
      subst hnil h
      obtain rfl := hother.resolve_left List.not_mem_nil
      exact .inr ⟨rfl, Nat.le_refl _⟩
    | some best =>
      rw [hbest] at h
      simp only at h
      split at h
      · rename_i hnearer
        obtain rfl := Option.some.inj h
        rcases hother with hmem | rfl
        · have hle := ih hsorted hbest hmem
          exact .inl (by omega)
        · exact .inr ⟨rfl, Nat.le_refl _⟩
      · rename_i hnot
        obtain rfl := Option.some.inj h
        rcases hother with hmem | rfl
        · exact ih hsorted hbest hmem
        · have hlt := hlast best (nearest?_mem hbest) other (List.mem_singleton.mpr rfl)
          omega

/-! ## Tiles that are visited -/

/-- Whether a fill for a region of interest visits the tile of a pixel. -/
def visits (l : TileLayout) (roi : Option Viewport) (p : Nat × Nat) : Bool :=
  (l.area? roi).any fun area => area.meetsTile (p.1 / tileEdge) (p.2 / tileEdge)

/-- A pixel of the image and of the region of interest is one of the area that the region selects. -/
theorem exists_area?_contains {x y : Nat} (hw : l.width < 0x80000000) (hh : l.height < 0x80000000)
    (hin : l.inImage x y = true) (hroi : ∀ v, roi = some v → v.contains x y = true) :
    ∃ area, l.area? roi = some area ∧ area.contains x y = true := by
  have hbounds : l.bounds.contains x y = true := by
    rw [Viewport.contains_iff, bounds, Viewport.ofSize_of_lt hw hh]
    obtain ⟨hx, hy⟩ := inImage_iff.mp hin
    dsimp only
    omega
  cases roi with
  | none => exact ⟨_, rfl, hbounds⟩
  | some v =>
    have hcommon : (v.common l.bounds).contains x y = true := by
      rw [Viewport.contains_common, hroi v rfl, hbounds]
      rfl
    refine ⟨_, if_neg fun hempty => ?_, hcommon⟩
    rw [Viewport.isEmpty_iff] at hempty
    rw [Viewport.contains_iff] at hcommon
    omega

/-- What an area selects is in the region of interest. -/
theorem contains_of_area? {x y : Nat} (ha : l.area? roi = some area) (hxy : area.contains x y = true) :
    ∀ v, roi = some v → v.contains x y = true := by
  rintro v rfl
  simp only [area?, Viewport.intersect?] at ha
  split at ha
  · cases ha
  · cases ha
    rw [Viewport.contains_common, Bool.and_eq_true] at hxy
    exact hxy.1

/-- A tile that meets an area has a pixel in it: the one that is next to the lower corner of the area. -/
theorem exists_contains_of_meetsTile (ha : l.area? roi = some area) (hempty : area.isEmpty = false)
    (h : area.meetsTile (p.1 / tileEdge) (p.2 / tileEdge) = true) :
    ∃ q : Nat × Nat, l.inImage q.1 q.2 = true ∧ SameTile p q ∧ area.contains q.1 q.2 = true := by
  obtain ⟨hx₀, hx₁, hy₀, hy₁⟩ := area?_within ha
  rw [Bool.eq_false_iff, ne_eq, Viewport.isEmpty_iff] at hempty
  simp only [Viewport.meetsTile, Bool.and_eq_true, decide_eq_true_eq] at h
  simp only [tileEdge] at h
  refine ⟨(max area.minX.toNat (p.1 / tileEdge * tileEdge), max area.minY.toNat (p.2 / tileEdge * tileEdge)),
    inImage_iff.mpr ?_, ?_, Viewport.contains_iff.mpr ?_⟩
  all_goals
    simp only [SameTile, tileEdge]
    omega

/-- A fill visits the tiles that meet the region of interest. -/
theorem visits_iff (hw : l.width < 0x80000000) (hh : l.height < 0x80000000) (hin : l.inImage p.1 p.2 = true) :
    l.visits roi p = true ↔ l.Meets roi p := by
  rw [visits, Option.any_eq_true]
  constructor
  · rintro ⟨area, ha, hmeets⟩
    obtain ⟨q, hq, hsame, hcontains⟩ := exists_contains_of_meetsTile ha (isEmpty_of_area? hw hh ha hin) hmeets
    exact ⟨q, hq, hsame, contains_of_area? ha hcontains⟩
  · rintro ⟨q, hq, hsame, hroi⟩
    obtain ⟨area, ha, hcontains⟩ := exists_area?_contains hw hh hq hroi
    refine ⟨area, ha, ?_⟩
    rw [hsame.1, hsame.2]
    exact Viewport.meetsTile_of_contains hcontains

end TileLayout

/-! ## Fills as look-ups -/

namespace Channel

variable {c : Channel} {layout : TileLayout} {roi : Option Viewport} {visited visited' : Nat × Nat → Bool}
  {slot source tile : Nat}

/-- The slot whose values stand in a slot once some pixels are visited. -/
def origin (c : Channel) (visited : Nat × Nat → Bool) (slot : Nat) : Nat :=
  if visited (c.layout.pixelOf slot) then (c.supplier? slot).getD slot else slot

/-- The channel after a fill that visits some pixels. -/
def filled (c : Channel) (visited : Nat × Nat → Bool) : Channel :=
  { c with
    data := c.data.mapIdx fun k value =>
      c.data.getD (c.origin visited (k / c.numChan) * c.numChan + k % c.numChan) value }

/-- A slot that is no gap, or is not visited, keeps its values. -/
theorem origin_eq_self (h : ¬ (c.IsGap slot ∧ visited (c.layout.pixelOf slot) = true)) :
    c.origin visited slot = slot := by
  rw [origin]
  split
  · rename_i hvisited
    have hnone : c.supplier? slot = none := Option.eq_none_iff_forall_ne_some.mpr fun _ hsource =>
      h ⟨(supplier?_isGap hsource).1, hvisited⟩
    rw [hnone, Option.getD_none]
  · rfl

/-- A slot with data is where the search for values ends, so a second search finds nothing new. -/
theorem origin_origin (c : Channel) (visited visited' : Nat × Nat → Bool) (slot : Nat) :
    c.origin visited (c.origin visited' slot) = c.origin (fun p => visited p || visited' p) slot := by
  cases hvisited : visited' (c.layout.pixelOf slot) with
  | false => simp only [origin, hvisited, Bool.or_false, Bool.false_eq_true, if_false]
  | true =>
    cases hsource : c.supplier? slot with
    | none => simp only [origin, hsource, Option.getD_none, ite_self]
    | some source =>
      have hcovered := not_isGap_of_isCovered (isCovered_of_mem_coveredSlots (supplier?_isGap hsource).2)
      have hfound (visited : Nat × Nat → Bool) (h : visited (c.layout.pixelOf slot) = true) :
          c.origin visited slot = source := by
        rw [origin, if_pos h, hsource, Option.getD_some]
      rw [hfound visited' hvisited, origin_eq_self fun h => hcovered h.1, hfound _ (by rw [hvisited, Bool.or_true])]

theorem origin_lt_capacity (visited : Nat × Nat → Bool) (hslot : slot < c.layout.capacity) :
    c.origin visited slot < c.layout.capacity := by
  rw [origin]
  split
  · cases hsource : c.supplier? slot with
    | none => exact hslot
    | some source => exact lt_capacity_of_mem_coveredSlots hslot (supplier?_isGap hsource).2
  · exact hslot

theorem Sized.filled (hs : c.Sized layout) (visited : Nat × Nat → Bool) : (c.filled visited).Sized layout where
  layout_eq := hs.layout_eq
  mask_layout := hs.mask_layout
  size_bits := hs.size_bits
  size_data := (Array.size_mapIdx ..).trans hs.size_data
  size_counts := hs.size_counts

/-- A value after a fill is that of its origin before. -/
theorem Sized.getElem?_filled (hs : c.Sized c.layout) (visited : Nat × Nat → Bool) (hslot : slot < c.layout.capacity)
    {j : Nat} (hj : j < c.numChan) :
    (c.filled visited).data[slot * c.numChan + j]? = c.data[c.origin visited slot * c.numChan + j]? := by
  have hsource := hs.value_lt (origin_lt_capacity visited hslot) hj
  simp [Channel.filled, div_of_slot hj, mod_of_slot hj, hs.value_lt hslot hj, hsource]

/-- What a slot has from itself is what it had. -/
theorem getElem?_filled_of_origin {k : Nat} (h : c.origin visited (k / c.numChan) = k / c.numChan) :
    (c.filled visited).data[k]? = c.data[k]? := by
  simp only [filled, Array.getElem?_mapIdx, h, Nat.div_add_mod', Array.getD_eq_getD_getElem?]
  cases c.data[k]? <;> rfl

/-- Two fills of the same channel are the same if all of their values are. -/
theorem Sized.eq_of_values (hs : c.Sized c.layout) {data data' : Array Binary32} (hsize : data.size = c.data.size)
    (hsize' : data'.size = c.data.size)
    (hvalues : ∀ slot < c.layout.capacity, ∀ j < c.numChan,
      data[slot * c.numChan + j]? = data'[slot * c.numChan + j]?) :
    ({ c with data } : Channel) = { c with data := data' } := by
  congr 1
  apply Array.ext_getElem?
  intro k
  by_cases hk : k < c.layout.capacity * c.numChan
  · have hpos : 0 < c.numChan := Nat.pos_of_ne_zero fun h0 => by simp [h0] at hk
    have hvalue := hvalues (k / c.numChan) (Nat.div_lt_of_lt_mul (by rwa [Nat.mul_comm])) (k % c.numChan)
      (Nat.mod_lt k hpos)
    rwa [Nat.div_add_mod'] at hvalue
  · rw [← hs.size_data] at hk
    rw [Array.getElem?_eq_none (by omega), Array.getElem?_eq_none (by omega)]

/-- A fill for a region of interest visits the tiles that the region meets. -/
theorem Sized.extrapolate_eq_filled (hs : c.Sized c.layout) (roi : Option Viewport) :
    c.extrapolate roi = c.filled (c.layout.visits roi) := by
  rw [extrapolate_eq]
  refine hs.eq_of_values (size_data_extrapolate c roi) (Array.size_mapIdx ..) fun slot hslot j hj => ?_
  refine Eq.trans ?_ (hs.getElem?_filled (c.layout.visits roi) hslot hj).symm
  cases ha : c.layout.area? roi with
  | none =>
    have hnone : c.layout.visits roi (c.layout.pixelOf slot) = false := by rw [TileLayout.visits, ha]; rfl
    simp only [Channel.extrapolate, ha, origin, hnone, Bool.false_eq_true, if_false]
  | some area =>
    have hvisits : c.layout.visits roi (c.layout.pixelOf slot) =
        area.meetsTile ((c.layout.pixelOf slot).1 / tileEdge) ((c.layout.pixelOf slot).2 / tileEdge) := by
      rw [TileLayout.visits, ha]
      rfl
    have horigin : c.origin (c.layout.visits roi) slot = (c.fillSource? area slot).getD slot := by
      rw [origin, fillSource?_eq, hvisits]
      split <;> rfl
    rw [horigin]
    cases hsource : c.fillSource? area slot with
    | none =>
      rw [getElem?_extrapolate ha, div_of_slot hj, getD_fillSources, if_pos hslot, hsource, Option.getD_none]
      exact Option.map_id'
    | some source => exact getElem?_extrapolate_of_source hs ha hslot hsource hj

/-- Fills that visit the same gaps are the same. -/
theorem filled_congr (h : ∀ slot, c.IsGap slot → visited (c.layout.pixelOf slot) = visited' (c.layout.pixelOf slot)) :
    c.filled visited = c.filled visited' := by
  have horigin (slot : Nat) : c.origin visited slot = c.origin visited' slot := by
    by_cases hgap : c.IsGap slot
    · rw [origin, origin, h slot hgap]
    · rw [origin_eq_self fun h => hgap h.1, origin_eq_self fun h => hgap h.1]
  simp only [filled, horigin]

/-- A fill that visits nothing changes nothing. -/
theorem Sized.filled_nothing (hs : c.Sized c.layout) : c.filled (fun _ => false) = c :=
  hs.eq_of_values (Array.size_mapIdx ..) rfl fun _ hslot _ hj => hs.getElem?_filled _ hslot hj

/-- Two fills are the fill that visits what either of them does. -/
theorem Sized.filled_filled (hs : c.Sized c.layout) (visited visited' : Nat × Nat → Bool) :
    (c.filled visited).filled visited' = c.filled fun p => visited p || visited' p := by
  refine hs.eq_of_values ((Array.size_mapIdx ..).trans (Array.size_mapIdx ..)) (Array.size_mapIdx ..)
    fun slot hslot j hj => ?_
  have hlt : c.origin visited' slot < c.layout.capacity := origin_lt_capacity visited' hslot
  calc ((c.filled visited).filled visited').data[slot * c.numChan + j]?
      = (c.filled visited).data[c.origin visited' slot * c.numChan + j]? :=
        (hs.filled visited).getElem?_filled visited' hslot hj
    _ = c.data[c.origin visited (c.origin visited' slot) * c.numChan + j]? := hs.getElem?_filled visited hlt hj
    _ = c.data[c.origin (fun p => visited p || visited' p) slot * c.numChan + j]? := by rw [origin_origin]
    _ = (c.filled fun p => visited p || visited' p).data[slot * c.numChan + j]? :=
        (hs.getElem?_filled _ hslot hj).symm

/-- One fill after another visits what any of them does. -/
theorem Sized.foldl_extrapolate (hs : c.Sized c.layout) (rois : List Viewport) :
    rois.foldl (fun c roi => c.extrapolate (some roi)) c =
      c.filled fun p => rois.any fun roi => c.layout.visits (some roi) p := by
  induction rois using List.reverseRecOn with
  | nil => exact hs.filled_nothing.symm
  | append_singleton rois roi ih =>
    rw [List.foldl_concat, ih, (hs.filled _).extrapolate_eq_filled, hs.filled_filled]
    refine filled_congr fun slot _ => ?_
    rw [List.any_append, List.any_cons, List.any_nil, Bool.or_false]
    rfl

/-! ## Exact fills -/

theorem coveredSlots_sorted (c : Channel) (tile : Nat) : (c.coveredSlots tile).Pairwise (· < ·) :=
  (List.pairwise_map.mpr (List.pairwise_lt_range.imp fun h => Nat.add_lt_add_left h _)).filter _

theorem mem_coveredSlots : slot ∈ c.coveredSlots tile ↔ slot / tileSlots = tile ∧ c.isCovered slot = true :=
  List.mem_filter.trans (and_congr_left fun _ => mem_slotsOfTile)

theorem Sized.isSet_pixelOf (hs : c.Sized c.layout) (slot : Nat) :
    c.mask.isSet (c.layout.pixelOf slot).1 (c.layout.pixelOf slot).2 = c.isCovered slot := by
  rw [PixelMask.isSet, hs.mask_layout, TileLayout.slot_pixelOf]
  rfl

/-- A pixel with data is that of a slot with data. -/
theorem Sized.exists_pixelOf (hs : c.Sized c.layout) {q : Nat × Nat} (h : c.mask.isSet q.1 q.2 = true) :
    ∃ slot, q = c.layout.pixelOf slot ∧ c.isCovered slot = true := by
  have hin := h
  rw [PixelMask.isSet, hs.mask_layout, Bool.and_eq_true] at hin
  have hpixel : c.layout.pixelOf (c.layout.slot q.1 q.2) = q := TileLayout.pixelOf_slot hin.1
  refine ⟨_, hpixel.symm, ?_⟩
  rwa [← hs.isSet_pixelOf, hpixel]

/-- The pixels that take values from others are the gaps that are visited. -/
theorem Sound.gains_iff (h : c.Sound) : c.Gains roi (c.layout.pixelOf slot) ↔
    c.IsGap slot ∧ c.layout.visits roi (c.layout.pixelOf slot) = true := by
  have hs : c.Sized c.layout := h.toSized
  constructor
  · intro hgains
    obtain ⟨q, hq, hsame⟩ := hgains.supplied
    obtain ⟨source, rfl, hcovered⟩ := hs.exists_pixelOf hq
    have hbare : c.mask.isSlotSet slot = false := by
      have hbare := hgains.bare
      rwa [hs.isSet_pixelOf, isCovered, hgains.inImage, Bool.true_and] at hbare
    have hmem : source ∈ c.coveredSlots (slot / tileSlots) :=
      mem_coveredSlots.mpr ⟨(TileLayout.sameTile_pixelOf.mp hsame).symm, hcovered⟩
    exact ⟨⟨hgains.inImage, hbare, List.ne_nil_of_mem hmem⟩,
      (TileLayout.visits_iff h.width h.height hgains.inImage).mpr hgains.meets⟩
  · rintro ⟨hgap, hvisits⟩
    obtain ⟨source, hmem⟩ := List.exists_mem_of_ne_nil _ hgap.covered
    obtain ⟨htile, hcovered⟩ := mem_coveredSlots.mp hmem
    refine ⟨hgap.inImage, ?_, (TileLayout.visits_iff h.width h.height hgap.inImage).mp hvisits,
      c.layout.pixelOf source, ?_, TileLayout.sameTile_pixelOf.mpr htile.symm⟩
    · rw [hs.isSet_pixelOf, isCovered, hgap.bare, Bool.and_false]
    · rwa [hs.isSet_pixelOf]

/-- What a gap takes its values from is the nearest pixel with data of its tile. -/
theorem Sized.isNearest_of_supplier? (hs : c.Sized c.layout) (hsource : c.supplier? slot = some source) :
    c.IsNearest (c.layout.pixelOf slot) (c.layout.pixelOf source) := by
  obtain ⟨hgap, hmem⟩ := supplier?_isGap hsource
  obtain ⟨htile, hcovered⟩ := mem_coveredSlots.mp hmem
  refine ⟨by rwa [hs.isSet_pixelOf], TileLayout.sameTile_pixelOf.mpr htile.symm, fun r hr hsame => ?_⟩
  obtain ⟨other, rfl, hother⟩ := hs.exists_pixelOf hr
  rw [TileLayout.slot_pixelOf, TileLayout.slot_pixelOf, ← cast_squaredDistance, ← cast_squaredDistance,
    Int.ofNat_lt, Int.ofNat_inj]
  exact TileLayout.nearest?_first (c.coveredSlots_sorted _) (hgap.supplier?_eq ▸ hsource)
    (mem_coveredSlots.mpr ⟨(TileLayout.sameTile_pixelOf.mp hsame).symm, hother⟩)

/-- The values of a slot after a fill are those of its origin before. -/
theorem Sized.slotValues_filled (hs : c.Sized c.layout) (visited : Nat × Nat → Bool)
    (hslot : slot < c.layout.capacity) :
    (c.filled visited).slotValues slot = c.slotValues (c.origin visited slot) := by
  have hle := hs.slot_le (origin_lt_capacity visited hslot)
  refine (eq_extract_slot ((hs.filled visited).slot_le hslot) (size_extract_slot hle) fun j hj => ?_).symm
  exact (getElem?_extract_slot hle hj).trans (hs.getElem?_filled visited hslot hj).symm

/-- Each fill is exact. -/
theorem Sound.fills (h : c.Sound) (roi : Option Viewport) : c.Fills roi (c.extrapolate roi) where
  gained := by
    intro p hp
    have hs : c.Sized c.layout := h.toSized
    have hslot := TileLayout.slot_lt_capacity hp.inImage
    have hpixel : c.layout.pixelOf (c.layout.slot p.1 p.2) = p := TileLayout.pixelOf_slot hp.inImage
    obtain ⟨hgap, hvisits⟩ := h.gains_iff.mp (hpixel.symm ▸ hp)
    obtain ⟨source, hsource⟩ := hgap.exists_supplier?
    have hnearest := hs.isNearest_of_supplier? hsource
    rw [hpixel] at hnearest
    refine ⟨c.layout.pixelOf source, hnearest, ?_⟩
    have hcovered := hnearest.covered
    rw [PixelMask.isSet, hs.mask_layout, Bool.and_eq_true] at hcovered
    have horigin : c.origin (c.layout.visits roi) (c.layout.slot p.1 p.2) = source := by
      rw [origin, if_pos hvisits, hsource, Option.getD_some]
    rw [hs.extrapolate_eq_filled, pixel?, pixel?, if_pos hcovered.1, TileLayout.slot_pixelOf, ← horigin,
      ← hs.slotValues_filled _ hslot]
    exact if_pos hp.inImage
  kept := by
    intro k hk
    have hs : c.Sized c.layout := h.toSized
    have hkept : ¬ (c.IsGap (k / c.numChan) ∧ c.layout.visits roi (c.layout.pixelOf (k / c.numChan)) = true) :=
      fun hgap => hk _ (h.gains_iff.mpr hgap) (TileLayout.slot_pixelOf ..).symm
    rw [hs.extrapolate_eq_filled, getElem?_filled_of_origin (origin_eq_self hkept)]
  rest := extrapolate_eq c roi

/-- Every fill of a channel that is made is an exact fill with the nearest values, also when it goes through the buffer
in place and tile by tile. A fill that is repeated changes nothing, two fills may change places, and fills for regions
of interest that meet all tiles of the image are together the fill without a region. -/
theorem extrapolate_nearest {c : Channel} (made : c.Made) :
    (∀ roi, c.Fills roi (c.extrapolate roi) ∧ c.extrapolateChecked roi = some (c.extrapolate roi)) ∧
      (∀ roi, (c.extrapolate roi).extrapolate roi = c.extrapolate roi) ∧
      (∀ roi roi', (c.extrapolate roi).extrapolate roi' = (c.extrapolate roi').extrapolate roi) ∧
      ∀ rois : List Viewport,
        (∀ p : Nat × Nat, c.layout.inImage p.1 p.2 = true → ∃ roi ∈ rois, c.layout.Meets (some roi) p) →
          rois.foldl (fun c roi => c.extrapolate (some roi)) c = c.extrapolate none := by
  have h := made.sound
  have hs : c.Sized c.layout := h.toSized
  have htwice (roi roi' : Option Viewport) : (c.extrapolate roi).extrapolate roi' =
      c.filled fun p => c.layout.visits roi p || c.layout.visits roi' p := by
    rw [hs.extrapolate_eq_filled, (hs.filled _).extrapolate_eq_filled, hs.filled_filled]
    rfl
  refine ⟨fun roi => ⟨h.fills roi, h.extrapolateChecked_eq roi⟩, fun roi => ?_, fun roi roi' => ?_,
    fun rois hcover => ?_⟩
  · rw [htwice, hs.extrapolate_eq_filled]
    exact filled_congr fun _ _ => Bool.or_self _
  · rw [htwice, htwice]
    exact filled_congr fun _ _ => Bool.or_comm ..
  · rw [hs.foldl_extrapolate, hs.extrapolate_eq_filled]
    refine filled_congr fun slot hgap => ?_
    obtain ⟨roi, hmem, hmeets⟩ := hcover _ hgap.inImage
    have hvisits (roi : Option Viewport) : c.layout.visits roi (c.layout.pixelOf slot) = true ↔
        c.layout.Meets roi (c.layout.pixelOf slot) := TileLayout.visits_iff h.width h.height hgap.inImage
    have hall : c.layout.Meets none (c.layout.pixelOf slot) := ⟨_, hgap.inImage, ⟨rfl, rfl⟩, nofun⟩
    rw [(hvisits none).mpr hall, List.any_eq_true]
    exact ⟨roi, hmem, (hvisits (some roi)).mpr hmeets⟩

/-- Data for the first and the fifth pixel of a row of nine. -/
def sparseUpdate : TileUpdate where
  mask := ((PixelMask.empty ⟨9, 1⟩).set 0 0).set 4 0
  numChan := 1
  values := #[⟨1⟩, ⟨2⟩]
  sampleCounts := none
  precision := {}

/-- The row once it has the data. -/
def sparseRow : Channel :=
  ((Channel.empty ⟨9, 1⟩ 1).mergeUpdate sparseUpdate).toOption.getD (Channel.empty ⟨9, 1⟩ 1)

theorem made_sparseRow : sparseRow.Made := by
  refine .mergeUpdate (u := sparseUpdate) (.empty (v := ⟨0, 0, 8, 0⟩) (by decide) 1)
    (((PixelMask.Made.empty ⟨9, 1⟩).set 0 0).set 4 0) ?_
  have hok : ((Channel.empty ⟨9, 1⟩ 1).mergeUpdate sparseUpdate).isOk = true := by decide +kernel
  cases hmerge : (Channel.empty ⟨9, 1⟩ 1).mergeUpdate sparseUpdate with
  | error e =>
    rw [hmerge] at hok
    cases hok
  | ok c =>
    rw [sparseRow, hmerge]
    exact hmerge

/-- The second pixel is nearer to the first one and the fourth pixel to the fifth one; the third is as near to both and
takes from the lower one. Each of the regions meets one of the two tiles. -/
theorem extrapolate_nearest_between :
    let left : Viewport := ⟨3, 0, 3, 0⟩
    let right : Viewport := ⟨8, 0, 20, 5⟩
    let whole := sparseRow.extrapolate none
    sparseRow.Made ∧ sparseRow.IsNearest (1, 0) (0, 0) ∧ sparseRow.IsNearest (3, 0) (4, 0) ∧
      (List.range 9).map (whole.pixel? · 0) =
        [#[⟨1⟩], #[⟨1⟩], #[⟨1⟩], #[⟨2⟩], #[⟨2⟩], #[⟨2⟩], #[⟨2⟩], #[⟨2⟩], #[⟨0⟩]].map some ∧
      sparseRow.Fills none whole ∧ sparseRow.extrapolateChecked none = some whole ∧
      (sparseRow.extrapolate (some left)).extrapolate (some right) = whole := by
  intro left right whole
  obtain ⟨hfills, -, -, hcover⟩ := extrapolate_nearest made_sparseRow
  have hlayout : sparseRow.layout = ⟨9, 1⟩ := by decide +kernel
  rw [hlayout] at hcover
  have hmeets (p : Nat × Nat) (hin : TileLayout.inImage ⟨9, 1⟩ p.1 p.2 = true) :
      ∃ roi ∈ [left, right], TileLayout.Meets ⟨9, 1⟩ (some roi) p := by
    rw [TileLayout.inImage_iff] at hin
    dsimp only at hin
    by_cases hcolumn : p.1 < 8
    · refine ⟨left, by decide, (3, 0), by decide, ?_, ?_⟩
      · simp only [SameTile, tileEdge]
        omega
      · rintro v ⟨⟩
        decide
    · refine ⟨right, by decide, (8, 0), by decide, ?_, ?_⟩
      · simp only [SameTile, tileEdge]
        omega
      · rintro v ⟨⟩
        decide
  have hboth := hcover [left, right] hmeets
  rw [List.foldl_cons, List.foldl_cons, List.foldl_nil] at hboth
  have hs : sparseRow.Sized sparseRow.layout := made_sparseRow.sound.toSized
  have hlower := hs.isNearest_of_supplier? (show sparseRow.supplier? 1 = some 0 by decide +kernel)
  have hupper := hs.isNearest_of_supplier? (show sparseRow.supplier? 3 = some 4 by decide +kernel)
  rw [hlayout] at hlower hupper
  exact ⟨made_sparseRow, hlower, hupper, by decide +kernel, (hfills none).1, (hfills none).2, hboth⟩

end Channel

end ProgressiveFrame
