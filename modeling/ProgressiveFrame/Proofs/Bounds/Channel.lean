import ProgressiveFrame.Proofs.Bounds.Mask
import ProgressiveFrame.Proofs.Channel.Blend
import ProgressiveFrame.Proofs.Store.Placement

/-!
# Channels that come about

Whatever updates arrive, and whatever is read out or reset between them, the buffers of a channel keep the lengths that
its layout asks for, and its mask keeps to the pixels of the image.

* `Channel.Made`: the channels that the operations make of an empty one.
* `Channel.Sound`: what they have in common. `Made.sound`: every channel that is made has it.
-/

namespace ProgressiveFrame.Channel

/-- The channels that come about from the empty channel of a viewport. The masks of updates are made, too, and an update
may have any layout and any number of values. -/
inductive Made : Channel → Prop where
  | empty {v : Viewport} (measurable : v.isMeasurable = true) (numChan : Nat) :
    Made (.empty ⟨v.width, v.height⟩ numChan)
  | mergeUpdate {c c' : Channel} {u : TileUpdate} (made : Made c) (maskMade : u.mask.Made)
    (result : c.mergeUpdate u = .ok c') : Made c'
  | mergeWeighted {c other c' : Channel} (made : Made c) (otherMade : Made other)
    (result : c.mergeWeighted other = .ok c') : Made c'
  | reset {c : Channel} (made : Made c) : Made c.reset
  | resetCoverage {c : Channel} (made : Made c) : Made c.resetCoverage
  | extrapolate {c : Channel} (made : Made c) (roi : Option Viewport) : Made (c.extrapolate roi)

/-- The buffers have the lengths that the layout asks for, the mask is over the same layout and has no bit set but for
pixels of the image, and the sides of the image are signed words of 32 bits. -/
structure Sound (c : Channel) : Prop extends c.Sized c.layout where
  mask : c.mask.Sound
  width : c.layout.width < 0x80000000
  height : c.layout.height < 0x80000000

variable {c c' other : Channel} {u : TileUpdate}

theorem sound_empty {v : Viewport} (hv : v.isMeasurable = true) (numChan : Nat) :
    (Channel.empty ⟨v.width, v.height⟩ numChan).Sound where
  toSized := .empty _ numChan
  mask := PixelMask.sound_empty _
  width := (Viewport.lt_of_isMeasurable hv).1
  height := (Viewport.lt_of_isMeasurable hv).2

theorem Sound.mergeUpdate (h : c.Sound) (hmask : u.mask.Sound) (hc : c.mergeUpdate u = .ok c') : c'.Sound := by
  have hsized := h.toSized.mergeUpdate hc
  obtain ⟨-, mask, hm, rfl⟩ := mergeUpdate_ok hc
  exact ⟨hsized, h.mask.merge hmask hm, h.width, h.height⟩

theorem Sound.mergeWeighted (h : c.Sound) (ho : other.Sound) (hc : c.mergeWeighted other = .ok c') : c'.Sound := by
  have hsized := h.toSized.mergeWeighted hc
  obtain ⟨-, -, mask, hm, rfl⟩ := mergeWeighted_ok hc
  exact ⟨hsized, h.mask.merge ho.mask hm, h.width, h.height⟩

theorem Sound.reset (h : c.Sound) : c.reset.Sound := ⟨h.toSized.reset, h.mask.clear, h.width, h.height⟩

theorem Sound.resetCoverage (h : c.Sound) : c.resetCoverage.Sound :=
  ⟨h.toSized.resetCoverage, h.mask.clear, h.width, h.height⟩

theorem Sound.extrapolate (h : c.Sound) (roi : Option Viewport) : (c.extrapolate roi).Sound := by
  have hsized := h.toSized.extrapolate roi
  rw [extrapolate_eq] at hsized ⊢
  exact ⟨hsized, h.mask, h.width, h.height⟩

/-- Every channel that is made is sound. -/
theorem Made.sound (h : c.Made) : c.Sound := by
  induction h with
  | empty measurable numChan => exact sound_empty measurable numChan
  | mergeUpdate _ maskMade result ih => exact ih.mergeUpdate maskMade.sound result
  | mergeWeighted _ _ result ih ihOther => exact ih.mergeWeighted ihOther result
  | reset _ ih => exact ih.reset
  | resetCoverage _ ih => exact ih.resetCoverage
  | extrapolate _ roi ih => exact ih.extrapolate roi

end ProgressiveFrame.Channel
