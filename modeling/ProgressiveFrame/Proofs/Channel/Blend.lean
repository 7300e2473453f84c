import ProgressiveFrame.Proofs.Bounds.Blend
import ProgressiveFrame.Proofs.Channel.Fill

/-!
# Channels are blended slot by slot

A channel is blended into another one through the buffers of both, with the ray counts that they have or that stand in
for them. Channels of one shape always can be, and each slot becomes what the two slots merge to.

* `Channel.Reachable`: the channels that the operations lead to. `Reachable.sized`: their buffers have the lengths that
  the layout asks for.
* `Channel.cell`: a slot with the ray count that it weighs with (`Channel.weightAt`).
* `cell_of_mergeWeighted`: a slot after a blend.
* `Channel.mergeWeightedInPlace`: a blend that writes the values over those of the channel before it looks at the masks.
* `mergeWeighted_everySlot`: what a blend leaves, and when it is refused.
-/

namespace ProgressiveFrame

theorem Binary32.scalar_zero : (Scalar.zero : Binary32) = .zero := by decide +kernel

namespace Channel

variable {c c' other : Channel} {layout : TileLayout} {slot : Nat}

/-! ## Shape -/

/-- Masks over one layout can be merged. -/
theorem exists_merge {m n : PixelMask} (h : m.layout = n.layout) : ∃ r, m.merge n = .ok r := ⟨_, if_pos h⟩

/-- An update of the right shape finds a mask of the same layout. -/
theorem Sized.exists_mergeUpdate (h : c.Sized c.layout) {u : TileUpdate}
    (hfit : u.mismatch? c.layout c.numChan = none) : ∃ c', c.mergeUpdate u = .ok c' := by
  have hlayout := (TileUpdate.mismatch?_eq_none_iff.mp hfit).layout_eq
  obtain ⟨mask, hmask⟩ := exists_merge (h.mask_layout.trans hlayout.symm)
  rw [Channel.mergeUpdate, hfit, hmask]
  exact ⟨_, rfl⟩

theorem Sized.size_effectiveCounts (h : c.Sized layout) : c.effectiveCounts.size = layout.capacity := by
  unfold effectiveCounts
  cases hc : c.sampleCounts with
  | none => simp [h.layout_eq]
  | some counts => exact h.size_counts counts hc

theorem Sized.extrapolate (h : c.Sized layout) (roi : Option Viewport) : (c.extrapolate roi).Sized layout := by
  have hsize := size_data_extrapolate c roi
  rw [extrapolate_eq]
  exact { h with size_data := hsize.trans h.size_data }

/-- What a blend that succeeds asks for and what it leaves. -/
theorem mergeWeighted_ok (hc : c.mergeWeighted other = .ok c') : other.layout = c.layout ∧ other.numChan = c.numChan ∧
    ∃ mask, c.mask.merge other.mask = .ok mask ∧
      let blended := c.weighted.blended other.weighted c.numChan
      c' = { c with data := blended.values, sampleCounts := some blended.counts, mask } := by
  rw [mergeWeighted] at hc
  split at hc
  · cases hc
  · split at hc
    · cases hc
    · rename_i hlayout hnum
      rw [ne_eq, Decidable.not_not] at hlayout hnum
      cases hblend : c.weighted.blend other.weighted c.numChan with
      | error e => simp [hblend, bind, Except.bind] at hc
      | ok blended =>
        cases hmask : c.mask.merge other.mask with
        | error e => simp [hblend, hmask, bind, Except.bind] at hc
        | ok mask =>
          simp only [hblend, hmask, bind, Except.bind, pure, Except.pure] at hc
          cases hc
          rw [(Weighted.blend_eq_ok_iff.mp hblend).2]
          exact ⟨hlayout, hnum, mask, rfl, rfl⟩

theorem Sized.mergeWeighted (h : c.Sized layout) (hc : c.mergeWeighted other = .ok c') : c'.Sized layout := by
  obtain ⟨-, -, mask, hmask, rfl⟩ := mergeWeighted_ok hc
  refine ⟨h.layout_eq, (PixelMask.layout_of_merge hmask).trans h.mask_layout,
    (PixelMask.size_bits_of_merge hmask).trans h.size_bits, ?_, fun counts hcounts => ?_⟩
  · exact (Weighted.size_values_blended ..).trans h.size_data
  · cases hcounts
    exact (Weighted.size_counts_blended ..).trans h.size_effectiveCounts

/-- The channels that the operations lead to from empty ones, with updates of any shape. -/
inductive Reachable : Channel → Prop where
  | empty (layout : TileLayout) (numChan : Nat) : Reachable (.empty layout numChan)
  | mergeUpdate {c c' : Channel} {u : TileUpdate} (reachable : Reachable c) (result : c.mergeUpdate u = .ok c') :
    Reachable c'
  | mergeWeighted {c other c' : Channel} (reachable : Reachable c) (otherReachable : Reachable other)
    (result : c.mergeWeighted other = .ok c') : Reachable c'
  | reset {c : Channel} (reachable : Reachable c) : Reachable c.reset
  | resetCoverage {c : Channel} (reachable : Reachable c) : Reachable c.resetCoverage
  | extrapolate {c : Channel} (reachable : Reachable c) (roi : Option Viewport) : Reachable (c.extrapolate roi)

/-- The buffers of a channel have the lengths that its layout asks for, whatever has been done to it. -/
theorem Reachable.sized (h : c.Reachable) : c.Sized c.layout := by
  induction h with
  | empty layout numChan => exact .empty layout numChan
  | mergeUpdate _ result ih =>
    have hs := ih.mergeUpdate result
    rwa [hs.layout_eq]
  | mergeWeighted _ _ result ih _ =>
    have hs := ih.mergeWeighted result
    rwa [hs.layout_eq]
  | reset _ ih => exact ih.reset
  | resetCoverage _ ih => exact ih.resetCoverage
  | extrapolate _ roi ih =>
    rw [layout_extrapolate]
    exact ih.extrapolate roi

/-! ## Slots -/

/-- The ray count that a slot weighs with: its own, or, in a channel without ray counts, one if the slot is covered. -/
def weightAt (c : Channel) (slot : Nat) : Binary32 :=
  match c.sampleCounts with
  | some counts => counts.getD slot .zero
  | none => if c.mask.isSlotSet slot then .one else .zero

/-- The values of a slot with the ray count that it weighs with. -/
def cell (c : Channel) (slot : Nat) : Cell Binary32 := ⟨c.slotValues slot, c.weightAt slot⟩

theorem Sized.cell_weighted (h : c.Sized layout) (hslot : slot < layout.capacity) :
    c.weighted.cell c.numChan slot = c.cell slot := by
  have hcount : c.weighted.count slot = c.weightAt slot := by
    rw [Weighted.count, weighted, effectiveCounts, weightAt]
    cases hc : c.sampleCounts with
    | none => simp [h.layout_eq, hslot]
    | some counts =>
      have hin : slot < counts.size := h.size_counts counts hc ▸ hslot
      simp [hin]
  rw [Weighted.cell, hcount]
  rfl

/-- Channels of one shape have buffers of the same lengths. -/
theorem Sized.fits_weighted (h : c.Sized layout) (ho : other.Sized layout) (hnum : other.numChan = c.numChan) :
    c.weighted.Fits other.weighted c.numChan where
  values := by rw [weighted, weighted, ho.size_data, h.size_data, hnum]
  counts := by rw [weighted, weighted, ho.size_effectiveCounts, h.size_effectiveCounts]
  pixels := by rw [weighted, h.size_effectiveCounts, h.size_data]

/-- Nothing keeps channels of one shape from being blended. -/
theorem Sized.blend_eq_ok (h : c.Sized layout) (ho : other.Sized layout) (hnum : other.numChan = c.numChan) :
    c.weighted.blend other.weighted c.numChan = .ok (c.weighted.blended other.weighted c.numChan) ∧
      ∃ mask, c.mask.merge other.mask = .ok mask :=
  ⟨Weighted.blend_eq_ok (h.fits_weighted ho hnum), exists_merge (h.mask_layout.trans ho.mask_layout.symm)⟩

theorem Sized.exists_mergeWeighted (h : c.Sized c.layout) (ho : other.Sized other.layout)
    (hlayout : other.layout = c.layout) (hnum : other.numChan = c.numChan) : ∃ c', c.mergeWeighted other = .ok c' := by
  rw [hlayout] at ho
  obtain ⟨hblend, mask, hmask⟩ := h.blend_eq_ok ho hnum
  rw [Channel.mergeWeighted, if_neg (not_not.mpr hlayout), if_neg (not_not.mpr hnum), hblend, hmask]
  exact ⟨_, rfl⟩

/-- A blend is refused for the shape alone. -/
theorem Sized.mergeWeighted_eq_error_iff (h : c.Sized c.layout) (ho : other.Sized other.layout) :
    (∃ e, c.mergeWeighted other = .error e) ↔ other.layout ≠ c.layout ∨ other.numChan ≠ c.numChan := by
  rw [← not_and_or]
  constructor
  · rintro ⟨e, he⟩ ⟨hlayout, hnum⟩
    obtain ⟨c', hc'⟩ := h.exists_mergeWeighted ho hlayout hnum
    rw [hc'] at he
    cases he
  · intro hshape
    cases hc : c.mergeWeighted other with
    | error e => exact ⟨e, rfl⟩
    | ok c' =>
      obtain ⟨hlayout, hnum, -⟩ := mergeWeighted_ok hc
      exact absurd ⟨hlayout, hnum⟩ hshape

/-- Each slot becomes what the two slots merge to. -/
theorem cell_of_mergeWeighted (h : c.Sized c.layout) (ho : other.Sized other.layout)
    (hc : c.mergeWeighted other = .ok c') (hslot : slot < c.layout.capacity) :
    c'.cell slot = (c.cell slot).merge (other.cell slot) := by
  have hs := h.mergeWeighted hc
  obtain ⟨hlayout, hnum, mask, -, rfl⟩ := mergeWeighted_ok hc
  rw [hlayout] at ho
  have hin : slot < c.weighted.counts.size := by rwa [weighted, h.size_effectiveCounts]
  rw [← hs.cell_weighted hslot, ← h.cell_weighted hslot, ← ho.cell_weighted hslot, hnum]
  exact Weighted.cell_blended (h.fits_weighted ho hnum) hin

/-! ## In place -/

/-- A blend that writes over the channel as it goes: the values, then the counts, and then the coverage. -/
def mergeWeightedInPlace (c other : Channel) : Option (Channel × Except FrameError Unit) :=
  if other.layout ≠ c.layout then some (c, .error (.layoutMismatch c.layout.size other.layout.size))
  else if other.numChan ≠ c.numChan then some (c, .error (.dimensionMismatch .channelCount c.numChan other.numChan))
  else do
    let (blended, result) ← c.weighted.blendInPlace other.weighted c.numChan
    -- The counts are a copy until the blend has succeeded, the values are not.
    let c := { c with data := blended.values }
    match result with
    | .error e => return (c, .error e)
    | .ok () =>
      let c := { c with sampleCounts := some blended.counts }
      match c.mask.merge other.mask with
      | .error e => return (c, .error e)
      | .ok mask => return ({ c with mask }, .ok ())

/-- Once the shapes agree nothing is refused, so that what is written stays. -/
theorem Sized.mergeWeightedInPlace_eq (h : c.Sized c.layout) (ho : other.Sized other.layout) :
    c.mergeWeightedInPlace other = some (inPlace c (c.mergeWeighted other)) := by
  rw [mergeWeightedInPlace, Channel.mergeWeighted]
  split
  · rfl
  · split
    · rfl
    · rename_i hlayout hnum
      rw [ne_eq, Decidable.not_not] at hlayout hnum
      rw [hlayout] at ho
      obtain ⟨hblend, mask, hmask⟩ := h.blend_eq_ok ho hnum
      rw [Weighted.blendInPlace_eq, hblend, hmask]
      simp only [inPlace, Option.bind_eq_bind, Option.bind_some, hmask]
      rfl

/-- A blend of channels is refused exactly if their layouts or their numbers of values differ, and leaves the channel as
it was then. Otherwise it has ray counts, covers what either channel covered, and keeps its encodings; each slot is what
the same slots of the two channels merge to, by the ray counts that they weigh with, and has rays or is zero. -/
theorem mergeWeighted_everySlot {a b : Channel} (ha : a.Reachable) (hb : b.Reachable) :
    a.mergeWeightedInPlace b = some (inPlace a (a.mergeWeighted b)) ∧
    ((∃ e, a.mergeWeighted b = .error e) ↔ b.layout ≠ a.layout ∨ b.numChan ≠ a.numChan) ∧
    ∀ m, a.mergeWeighted b = .ok m →
      m.layout = a.layout ∧ m.numChan = a.numChan ∧ m.precision = a.precision ∧ m.sampleCounts.isSome = true ∧
      ∀ slot < a.layout.capacity,
        m.cell slot = (a.cell slot).merge (b.cell slot) ∧
        m.mask.isSlotSet slot = (a.mask.isSlotSet slot || b.mask.isSlotSet slot) ∧
        (Scalar.lt .zero (m.weightAt slot) = true ∨
          m.weightAt slot = .zero ∧ ∀ v ∈ m.slotValues slot, v = .zero) := by
  have hsa := ha.sized
  have hsb := hb.sized
  refine ⟨hsa.mergeWeightedInPlace_eq hsb, hsa.mergeWeighted_eq_error_iff hsb, fun m hm => ?_⟩
  have hcell {slot : Nat} (hslot : slot < a.layout.capacity) := cell_of_mergeWeighted hsa hsb hm hslot
  obtain ⟨-, -, mask, hmask, rfl⟩ := mergeWeighted_ok hm
  refine ⟨rfl, rfl, rfl, rfl, fun slot hslot => ⟨hcell hslot, ?_, ?_⟩⟩
  · have hin : slot < a.mask.bits.size := hsa.size_bits ▸ hslot
    simp [PixelMask.isSlotSet_of_merge hmask, hin]
  · have hrays := Cell.merge_hasRays_or_zero (a.cell slot) (b.cell slot)
    rwa [← hcell hslot, Binary32.scalar_zero] at hrays

/-- One ray of the value 4 and three of the value 8. A slot whose value was kept without its rays loses it. -/
theorem mergeWeighted_everySlot_fourRays :
    let layout : TileLayout := ⟨2, 1⟩
    let three : Binary32 := ⟨0x40400000⟩
    let four : Binary32 := ⟨0x40800000⟩
    let seven : Binary32 := ⟨0x40e00000⟩
    let eight : Binary32 := ⟨0x41000000⟩
    let update (value count : Binary32) : TileUpdate :=
      ⟨(PixelMask.empty layout).set 1 0, 1, #[value], some #[count], {}⟩
    let channel (value count : Binary32) : Channel :=
      ⟨layout, 1, (Array.replicate 64 .zero).setIfInBounds 1 value,
        some ((Array.replicate 64 .zero).setIfInBounds 1 count), (PixelMask.empty layout).set 1 0, {}⟩
    (Channel.empty layout 1).mergeUpdate (update four .one) = .ok (channel four .one) ∧
    (Channel.empty layout 1).mergeUpdate (update eight three) = .ok (channel eight three) ∧
    (∃ m, (channel four .one).mergeWeighted (channel eight three) = .ok m ∧ m.cell 1 = ⟨#[seven], four⟩) ∧
    (channel four .one).resetCoverage.cell 1 = ⟨#[four], .zero⟩ ∧
    ∃ m, (channel four .one).resetCoverage.mergeWeighted (channel eight three).resetCoverage = .ok m ∧
      m.cell 1 = ⟨#[.zero], .zero⟩ := by
  intro layout three four seven eight update channel
  have hone : (Channel.empty layout 1).mergeUpdate (update four .one) = .ok (channel four .one) := by decide +kernel
  have hthree : (Channel.empty layout 1).mergeUpdate (update eight three) = .ok (channel eight three) := by
    decide +kernel
  have hcapacity : 1 < layout.capacity := by decide +kernel
  have ha : (channel four .one).Reachable := (Reachable.empty layout 1).mergeUpdate hone
  have hb : (channel eight three).Reachable := (Reachable.empty layout 1).mergeUpdate hthree
  have hmerged {a b : Channel} (ha : a.Reachable) (hb : b.Reachable) (hla : a.layout = layout) (hlb : b.layout = layout)
      (hna : a.numChan = 1) (hnb : b.numChan = 1) :
      ∃ m, a.mergeWeighted b = .ok m ∧ m.cell 1 = (a.cell 1).merge (b.cell 1) := by
    obtain ⟨-, herror, hslots⟩ := mergeWeighted_everySlot ha hb
    cases hm : a.mergeWeighted b with
    | error e => exact absurd (herror.mp ⟨e, hm⟩) (by simp [hla, hlb, hna, hnb])
    | ok m =>
      obtain ⟨-, -, -, -, hslot⟩ := hslots m hm
      exact ⟨m, rfl, (hslot 1 (hla ▸ hcapacity)).1⟩
  obtain ⟨m, hm, hcell⟩ := hmerged ha hb rfl rfl rfl rfl
  obtain ⟨m', hm', hcell'⟩ := hmerged ha.resetCoverage hb.resetCoverage rfl rfl rfl rfl
  exact ⟨hone, hthree, ⟨m, hm, hcell.trans (by decide +kernel)⟩, by decide +kernel, m', hm',
    hcell'.trans (by decide +kernel)⟩

end Channel

end ProgressiveFrame
