import ProgressiveFrame.Proofs.Image.Merge
import ProgressiveFrame.Verify.Check

/-!
# Contributions are combined pixel by pixel

Combining images goes through flat buffers of components and counts. Each pixel of what comes out is what the samples of
the pixel merge to, one contribution after another.

* `SampledImage.sampleAt`: a pixel of an image with its rays, as a sample.
* `SampledImage.accumulated`: the image whose pixels are merged samples.
* `merge_ofSamples`: one contribution more is one merge more in each pixel.
* `FrameDumps.combine_of_hasSize`, `combine_of_not_hasSize`: contributions of the size that is asked for combine to
  `accumulated`, and any other contribution is an error.
-/

namespace ProgressiveFrame

namespace SampledImage

/-- Both images have a size. -/
structure HasSize (i : SampledImage) (width height : Nat) : Prop where
  beauty : i.beauty.size = (width, height)
  numSample : i.numSample.size = (width, height)

instance (i : SampledImage) (width height : Nat) : Decidable (i.HasSize width height) :=
  decidable_of_iff (i.beauty.size = (width, height) ∧ i.numSample.size = (width, height))
    ⟨fun h => ⟨h.1, h.2⟩, fun h => ⟨h.beauty, h.numSample⟩⟩

/-- Both images are rectangles of pixels. -/
structure Formed (i : SampledImage) : Prop where
  beauty : i.beauty.Formed
  numSample : i.numSample.Formed

/-- Pixel `k` with its rays, whose number is the red component of the count image. -/
def sampleAt (i : SampledImage) (k : Nat) : Sample Binary32 :=
  ⟨i.beauty.pixels.getD k (.uniform .zero), (i.numSample.pixels.getD k (.uniform .zero)).r⟩

/-- The image whose pixels are samples, with each count in all three components. -/
def ofSamples (width height : Nat) (f : Nat → Sample Binary32) : SampledImage :=
  ⟨⟨width, height, (Array.range (width * height)).map fun k => (f k).color⟩,
    ⟨width, height, (Array.range (width * height)).map fun k => .uniform (f k).count⟩⟩

/-- The image in which each pixel is what the parts have there, merged one after another. -/
def accumulated (width height : Nat) (parts : List SampledImage) : SampledImage :=
  ofSamples width height fun k => (parts.map (·.sampleAt k)).foldl Sample.merge .zero

variable {p : SampledImage} {width height : Nat} {f : Nat → Sample Binary32}

theorem Formed.size_beauty (hf : p.Formed) (hs : p.HasSize width height) : p.beauty.pixels.size = width * height := by
  have hsize := hs.beauty
  rw [RgbImage.size, Prod.mk.injEq] at hsize
  rw [hf.beauty.size, hsize.1, hsize.2]

theorem Formed.size_numSample (hf : p.Formed) (hs : p.HasSize width height) :
    p.numSample.pixels.size = width * height := by
  have hsize := hs.numSample
  rw [RgbImage.size, Prod.mk.injEq] at hsize
  rw [hf.numSample.size, hsize.1, hsize.2]

theorem sampleAt_ofSamples {k : Nat} (hk : k < width * height) : (ofSamples width height f).sampleAt k = f k := by
  simp [sampleAt, ofSamples, Rgb.uniform, hk]

/-- An image is the one with some samples if its pixels are. -/
theorem eq_ofSamples {i : SampledImage} (hs : i.HasSize width height) (hbeauty : i.beauty.pixels.size = width * height)
    (hnumSample : i.numSample.pixels.size = width * height)
    (hpixels : ∀ k, k < width * height →
      i.beauty.pixels[k]? = some (f k).color ∧ i.numSample.pixels[k]? = some (.uniform (f k).count)) :
    i = ofSamples width height f := by
  have hmeet {j : RgbImage} {g : Nat → Rgb Binary32} (hj : j.size = (width, height))
      (hsize : j.pixels.size = width * height) (hat : ∀ k, k < width * height → j.pixels[k]? = some (g k)) :
      j = ⟨width, height, (Array.range (width * height)).map g⟩ := by
    obtain ⟨w, h, pixels⟩ := j
    cases hj
    congr 1
    apply Array.ext
    · simpa using hsize
    · intro k hk _
      have hvalue := hat k (hsize ▸ hk)
      rw [Array.getElem?_eq_getElem hk, Option.some.injEq] at hvalue
      rw [hvalue, Array.getElem_map, Array.getElem_range]
  obtain ⟨beauty, numSample⟩ := i
  rw [ofSamples, mk.injEq]
  exact ⟨hmeet hs.beauty hbeauty fun k hk => (hpixels k hk).1,
    hmeet hs.numSample hnumSample fun k hk => (hpixels k hk).2⟩

theorem zero_eq_ofSamples (width height : Nat) : zero width height = ofSamples width height fun _ => .zero := by
  simp only [zero, ofSamples, RgbImage.black, Sample.zero, Array.map_const', Array.size_range]
  rfl

/-- One contribution more is one merge more in each pixel. -/
theorem merge_ofSamples (hf : p.Formed) (hs : p.HasSize width height) :
    (ofSamples width height f).merge p = .ok (ofSamples width height fun k => (f k).merge (p.sampleAt k)) := by
  have hsize : (ofSamples width height f).beauty.pixels.size = width * height := by simp [ofSamples]
  have hsize' : (ofSamples width height f).numSample.pixels.size = width * height := by simp [ofSamples]
  have hcount : (ofSamples width height f).beauty.Matches (ofSamples width height f).numSample :=
    ⟨rfl, hsize'.trans hsize.symm⟩
  have hcolors : (ofSamples width height f).beauty.Matches p.beauty :=
    ⟨hs.beauty, (hf.size_beauty hs).trans hsize.symm⟩
  have hcounts : (ofSamples width height f).beauty.Matches p.numSample :=
    ⟨hs.numSample, (hf.size_numSample hs).trans hsize.symm⟩
  rw [merge, RgbImage.mergeInto_of_matches hcount hcolors hcounts]
  refine congrArg Except.ok (eq_ofSamples ⟨rfl, rfl⟩ ?_ ?_ fun k hk => ?_)
  · exact (RgbImage.size_pixels_withInterleaved ..).trans hsize
  · exact (RgbImage.size_pixels_withCounts ..).trans hsize'
  · have hpixel := RgbImage.pixels_merged hcount hcolors hcounts (hsize ▸ hk)
    have hown : (ofSamples width height f).beauty.sampleAt (ofSamples width height f).numSample k = f k :=
      sampleAt_ofSamples hk
    rwa [hown] at hpixel

/-- Contributions of another size are refused. -/
theorem merge_of_not_hasSize {acc : SampledImage} (hacc : acc.HasSize width height) (hs : ¬ p.HasSize width height) :
    ∃ size, acc.merge p = .error (.layoutMismatch (width, height) size) := by
  obtain ⟨other, -, -, hmerge⟩ := RgbImage.mergeInto_of_not_size acc.beauty acc.numSample p.beauty p.numSample
    fun h => hs ⟨h.2.1.trans hacc.beauty, h.2.2.trans hacc.beauty⟩
  refine ⟨other.size, ?_⟩
  rw [merge, hmerge, hacc.beauty]
  rfl

end SampledImage

namespace FrameDumps

open SampledImage

variable {width height : Nat} {parts : List SampledImage}

/-- Parts of the size that is asked for are merged pixel by pixel. -/
theorem foldlM_merge_of_hasSize {f : Nat → Sample Binary32} (hf : ∀ p ∈ parts, p.Formed)
    (hs : ∀ p ∈ parts, p.HasSize width height) :
    parts.foldlM SampledImage.merge (ofSamples width height f) =
      .ok (ofSamples width height fun k => (parts.map (·.sampleAt k)).foldl Sample.merge (f k)) := by
  induction parts generalizing f with
  | nil => rfl
  | cons p parts ih =>
    obtain ⟨hfp, hfrest⟩ := List.forall_mem_cons.mp hf
    obtain ⟨hsp, hsrest⟩ := List.forall_mem_cons.mp hs
    rw [List.foldlM_cons, merge_ofSamples hfp hsp]
    exact ih hfrest hsrest

theorem combine_of_hasSize (hf : ∀ p ∈ parts, p.Formed) (hs : ∀ p ∈ parts, p.HasSize width height) :
    combine width height parts = .ok (accumulated width height parts) := by
  rw [combine, zero_eq_ofSamples, foldlM_merge_of_hasSize hf hs]
  rfl

/-- The first part of another size ends it. -/
theorem foldlM_merge_of_not_hasSize {f : Nat → Sample Binary32} (hf : ∀ p ∈ parts, p.Formed)
    (hs : ¬ ∀ p ∈ parts, p.HasSize width height) : ∃ size,
      parts.foldlM SampledImage.merge (ofSamples width height f) = .error (.layoutMismatch (width, height) size) := by
  induction parts generalizing f with
  | nil => exact absurd (fun p hp => absurd hp List.not_mem_nil) hs
  | cons p parts ih =>
    obtain ⟨hfp, hfrest⟩ := List.forall_mem_cons.mp hf
    by_cases hsp : p.HasSize width height
    · obtain ⟨size, hrest⟩ := ih hfrest fun hsrest => hs (List.forall_mem_cons.mpr ⟨hsp, hsrest⟩)
      exact ⟨size, by rw [List.foldlM_cons, merge_ofSamples hfp hsp]; exact hrest⟩
    · have hacc : (ofSamples width height f).HasSize width height := ⟨rfl, rfl⟩
      obtain ⟨size, hmerge⟩ := merge_of_not_hasSize hacc hsp
      exact ⟨size, by rw [List.foldlM_cons, hmerge]; rfl⟩

theorem combine_of_not_hasSize (hf : ∀ p ∈ parts, p.Formed) (hs : ¬ ∀ p ∈ parts, p.HasSize width height) :
    ∃ size, combine width height parts = .error (.layoutMismatch (width, height) size) := by
  rw [combine, zero_eq_ofSamples]
  exact foldlM_merge_of_not_hasSize hf hs

end FrameDumps

end ProgressiveFrame
