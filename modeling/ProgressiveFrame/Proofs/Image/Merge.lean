import ProgressiveFrame.Proofs.Bounds.Blend
import ProgressiveFrame.Proofs.Image.Dump

/-!
# Merging images

Images are merged through flat buffers of components and counts. What comes out is an image of the same size, in which
each pixel is what the samples of the pixel merge to.

* `RgbImage.weighted`: two images as a buffer. `sample_weighted`: its pixels are those of the images.
* `RgbImage.Matches`: what two images have to have in common.
* `RgbImage.pixels_merged`: what a merge leaves in each pixel. `mergeInto_eq_error_iff`: when it is refused.
* `RgbImage.mergeInPlace`: a merge that writes over the accumulated images.
* `RgbImage.merges_alike`: samples, buffers and images merge alike.
-/

namespace ProgressiveFrame.RgbImage

variable {i j accColor accCount color count : RgbImage} {k : Nat}

@[simp] theorem size_counts (i : RgbImage) : i.counts.size = i.pixels.size := by simp [counts]

@[simp] theorem size_pixels_withInterleaved (i : RgbImage) (values : Array Binary32) :
    (i.withInterleaved values).pixels.size = i.pixels.size := by simp [withInterleaved]

@[simp] theorem size_pixels_withCounts (i : RgbImage) (counts : Array Binary32) :
    (i.withCounts counts).pixels.size = i.pixels.size := by simp [withCounts]

theorem toList_interleaved (i : RgbImage) : i.interleaved.toList = i.pixels.toList.flatMap (·.toList) := by
  simp [interleaved, Rgb.toList, Array.toList_flatMap]

@[simp] theorem size_interleaved (i : RgbImage) : i.interleaved.size = i.pixels.size * 3 := by
  rw [← Array.length_toList, toList_interleaved, List.length_flatMap]
  simp [Rgb.toList]

/-- Component `j` of pixel `k`. -/
theorem getElem?_interleaved (i : RgbImage) {k j : Nat} (hj : j < 3) :
    i.interleaved[3 * k + j]? = i.pixels[k]?.bind (·.toList[j]?) := by
  rw [← Array.getElem?_toList, toList_interleaved, getElem?_flatMap_of_length (n := 3) (fun _ => rfl) _ hj,
    Array.getElem?_toList]

/-! ## Images as buffers -/

/-- The components of an image with the ray counts that the red components of another one are. -/
def weighted (color count : RgbImage) : Weighted Binary32 := ⟨color.interleaved, count.counts⟩

/-- Pixel `k` of an image, with the ray count that the red component of another one is. -/
def sampleAt (color count : RgbImage) (k : Nat) : Sample Binary32 :=
  ⟨color.pixels.getD k (.uniform .zero), (count.pixels.getD k (.uniform .zero)).r⟩

theorem sampleAt_eq (hcolor : k < color.pixels.size) (hcount : k < count.pixels.size) :
    color.sampleAt count k = ⟨color.pixels[k], count.pixels[k].r⟩ := by
  simp [sampleAt, hcolor, hcount]

/-- The pixels of the buffer are those of the images. -/
theorem sample_weighted (hcolor : k < color.pixels.size) (hcount : k < count.pixels.size) :
    (color.weighted count).sample k = color.sampleAt count k := by
  have hvalue {j : Nat} (hj : j < 3) : color.interleaved[3 * k + j]? = color.pixels[k].toList[j]? := by
    rw [getElem?_interleaved color hj, Array.getElem?_eq_getElem hcolor, Option.bind_some]
  have hr := hvalue (j := 0) (by decide)
  rw [Nat.add_zero] at hr
  rw [sampleAt_eq hcolor hcount]
  simp only [Weighted.sample, Weighted.count, weighted, counts, Array.getD_eq_getD_getElem?, hr,
    hvalue (j := 1) (by decide), hvalue (j := 2) (by decide), Array.getElem?_map, Array.getElem?_eq_getElem hcount]
  rfl

/-- An image takes its colours from a buffer. -/
theorem getElem?_withInterleaved {w : Weighted Binary32} (hk : k < i.pixels.size)
    (hsize : w.values.size = i.pixels.size * 3) :
    (i.withInterleaved w.values).pixels[k]? = some (w.sample k).color := by
  have hvalue {j : Nat} (hj : j < 3) (d : Binary32) :
      w.values.getD (3 * k + j) d = w.values.getD (3 * k + j) Scalar.zero := by
    have hin : 3 * k + j < w.values.size := by omega
    simp [Array.getD_eq_getD_getElem?, Array.getElem?_eq_getElem hin]
  simp only [withInterleaved, Array.getElem?_mapIdx, Array.getElem?_eq_getElem hk, Option.map_some, Weighted.sample]
  exact congrArg some (Rgb.mk.injEq .. ▸ ⟨hvalue (j := 0) (by decide) _, hvalue (by decide) _, hvalue (by decide) _⟩)

/-- An image takes its counts from a buffer, each of them in all three components. -/
theorem getElem?_withCounts {w : Weighted Binary32} (hk : k < i.pixels.size) (hsize : w.counts.size = i.pixels.size) :
    (i.withCounts w.counts).pixels[k]? = some (.uniform (w.sample k).count) := by
  have hin : k < w.counts.size := hsize ▸ hk
  simp [withCounts, Weighted.sample, Weighted.count, hk, hin]

/-! ## Merges -/

/-- Two images are of one size and have the same number of pixels. -/
structure Matches (i j : RgbImage) : Prop where
  size : j.size = i.size
  pixels : j.pixels.size = i.pixels.size

theorem Formed.matches (hi : i.Formed) (hj : j.Formed) (h : j.size = i.size) : i.Matches j where
  size := h
  pixels := by
    rw [RgbImage.size, RgbImage.size, Prod.mk.injEq] at h
    rw [hj.size, hi.size, h.1, h.2]

/-- The colours that a merge leaves. -/
def mergedColor (accColor accCount color count : RgbImage) : RgbImage :=
  accColor.withInterleaved ((accColor.weighted accCount).blended (color.weighted count) 3).values

/-- The counts that a merge leaves. -/
def mergedCount (accColor accCount color count : RgbImage) : RgbImage :=
  accCount.withCounts ((accColor.weighted accCount).blended (color.weighted count) 3).counts

section Matches

variable (haccCount : accColor.Matches accCount) (hcolor : accColor.Matches color) (hcount : accColor.Matches count)
include haccCount hcolor hcount

theorem fits_weighted : (accColor.weighted accCount).Fits (color.weighted count) 3 where
  values := by simp [weighted, hcolor.pixels]
  counts := by simp [weighted, hcount.pixels, haccCount.pixels]
  pixels := by simp [weighted, haccCount.pixels]

/-- Images that match are merged. -/
theorem mergeInto_of_matches : accColor.mergeInto accCount color count =
    .ok (accColor.mergedColor accCount color count, accColor.mergedCount accCount color count) := by
  have hnone : [accCount, color, count].find? (fun other => !accColor.sameSize other) = none := by
    simp [sameSize_iff, haccCount.size, hcolor.size, hcount.size]
  have hblend := Weighted.blend_eq_ok (fits_weighted haccCount hcolor hcount)
  rw [weighted, weighted] at hblend
  simp only [mergeInto, hnone, hblend]
  rfl

/-- Each pixel of the merged images is what the samples of the pixel merge to. -/
theorem pixels_merged (hk : k < accColor.pixels.size) :
    let sample := (accColor.sampleAt accCount k).merge (color.sampleAt count k)
    (accColor.mergedColor accCount color count).pixels[k]? = some sample.color ∧
      (accColor.mergedCount accCount color count).pixels[k]? = some (.uniform sample.count) := by
  have hk' : k < accCount.pixels.size := haccCount.pixels ▸ hk
  have hin : k < (accColor.weighted accCount).counts.size := by rwa [weighted, size_counts]
  have hsample := Weighted.sample_blended (fits_weighted haccCount hcolor hcount) hin
  rw [sample_weighted hk hk', sample_weighted (hcolor.pixels ▸ hk) (hcount.pixels ▸ hk)] at hsample
  intro sample
  rw [mergedColor, mergedCount, getElem?_withInterleaved hk, getElem?_withCounts hk', hsample]
  · exact ⟨rfl, rfl⟩
  · rw [Weighted.size_counts_blended, weighted, size_counts]
  · rw [Weighted.size_values_blended, weighted, size_interleaved]

end Matches

/-- A merge is refused for a size alone, and it is the first of the other sizes that it names. -/
theorem find?_eq_none_iff : [accCount, color, count].find? (fun other => !accColor.sameSize other) = none ↔
    accCount.size = accColor.size ∧ color.size = accColor.size ∧ count.size = accColor.size := by
  simp [sameSize_iff, @eq_comm _ accColor.size]

/-- Images of different sizes are not merged. -/
theorem mergeInto_of_not_size (accColor accCount color count : RgbImage)
    (h : ¬ (accCount.size = accColor.size ∧ color.size = accColor.size ∧ count.size = accColor.size)) :
    ∃ other ∈ [accCount, color, count], other.size ≠ accColor.size ∧
      accColor.mergeInto accCount color count = .error (.layoutMismatch accColor.size other.size) := by
  rw [← find?_eq_none_iff, ← ne_eq, Option.ne_none_iff_exists'] at h
  obtain ⟨other, hother⟩ := h
  have hdiffers := List.find?_some hother
  rw [Bool.not_eq_true', ← Bool.not_eq_true, sameSize_iff] at hdiffers
  refine ⟨other, List.mem_of_find?_eq_some hother, Ne.symm hdiffers, ?_⟩
  simp only [mergeInto, hother]

/-- A merge that writes over the accumulated images, once the buffer is blended. -/
def mergeInPlace (accColor accCount color count : RgbImage) : Option ((RgbImage × RgbImage) × Except FrameError Unit) :=
  match [accCount, color, count].find? fun other => !accColor.sameSize other with
  | some other => some ((accColor, accCount), .error (.layoutMismatch accColor.size other.size))
  | none => do
    let (merged, result) ← (accColor.weighted accCount).blendInPlace (color.weighted count) 3
    match result with
    | .error e => return ((accColor, accCount), .error e)
    | .ok () => return ((accColor.withInterleaved merged.values, accCount.withCounts merged.counts), .ok ())

theorem mergeInPlace_eq (accColor accCount color count : RgbImage) :
    accColor.mergeInPlace accCount color count =
      some (inPlace (accColor, accCount) (accColor.mergeInto accCount color count)) := by
  simp only [mergeInPlace, mergeInto]
  cases [accCount, color, count].find? fun other => !accColor.sameSize other with
  | some other => rfl
  | none =>
    simp only [Weighted.blendInPlace_eq, weighted]
    cases Weighted.blend ⟨accColor.interleaved, accCount.counts⟩ ⟨color.interleaved, count.counts⟩ 3 <;> rfl

/-! ## All merges -/

/-- An image has a pixel at each place of its rectangle. -/
theorem Formed.offset_lt (h : i.Formed) {x y : Nat} (hx : x < i.width) (hy : y < i.height) :
    i.offset x y < i.pixels.size := by
  rw [h.size, offset, Nat.mul_comm i.width]
  calc y * i.width + x < (y + 1) * i.width := by rw [Nat.succ_mul]; omega
    _ ≤ i.height * i.width := Nat.mul_le_mul_right _ hy

theorem Matches.offset_eq (h : i.Matches j) (x y : Nat) : j.offset x y = i.offset x y := by
  have hwidth : j.width = i.width := congrArg Prod.fst h.size
  rw [offset, offset, hwidth]

section Formed

variable (haccColor : accColor.Formed) (haccCount : accCount.Formed) (hcolor : color.Formed) (hcount : count.Formed)
include haccColor haccCount hcolor hcount

/-- Images of one size are merged. -/
theorem mergeInto_of_size
    (h : accCount.size = accColor.size ∧ color.size = accColor.size ∧ count.size = accColor.size) :
    accColor.mergeInto accCount color count =
      .ok (accColor.mergedColor accCount color count, accColor.mergedCount accCount color count) :=
  mergeInto_of_matches (haccColor.matches haccCount h.1) (haccColor.matches hcolor h.2.1)
    (haccColor.matches hcount h.2.2)

/-- Images are refused exactly if one of them is of another size. -/
theorem mergeInto_eq_error_iff : (∃ e, accColor.mergeInto accCount color count = .error e) ↔
    accCount.size ≠ accColor.size ∨ color.size ≠ accColor.size ∨ count.size ≠ accColor.size := by
  rw [← not_and_or, ← not_and_or]
  constructor
  · rintro ⟨e, he⟩ hsizes
    rw [mergeInto_of_size haccColor haccCount hcolor hcount hsizes] at he
    cases he
  · intro hsizes
    obtain ⟨other, -, -, hmerge⟩ := mergeInto_of_not_size _ _ _ _ hsizes
    exact ⟨_, hmerge⟩

/-- What is merged leaves a merged sample in each pixel. -/
theorem pixel?_of_mergeInto {newColor newCount : RgbImage}
    (h : accColor.mergeInto accCount color count = .ok (newColor, newCount)) :
    newColor.size = accColor.size ∧ newCount.size = accColor.size ∧
      ∀ x < accColor.width, ∀ y < accColor.height, ∃ c n d m,
        accColor.pixel? x y = some c ∧ accCount.pixel? x y = some n ∧
        color.pixel? x y = some d ∧ count.pixel? x y = some m ∧
        let sample := Sample.merge ⟨c, n.r⟩ ⟨d, m.r⟩
        newColor.pixel? x y = some sample.color ∧ newCount.pixel? x y = some (.uniform sample.count) := by
  by_cases hsizes : accCount.size = accColor.size ∧ color.size = accColor.size ∧ count.size = accColor.size
  · rw [mergeInto_of_size haccColor haccCount hcolor hcount hsizes] at h
    cases h
    have hn := haccColor.matches haccCount hsizes.1
    have hc := haccColor.matches hcolor hsizes.2.1
    have hm := haccColor.matches hcount hsizes.2.2
    refine ⟨rfl, hn.size, fun x hx y hy => ?_⟩
    have hk := haccColor.offset_lt hx hy
    obtain ⟨hnewColor, hnewCount⟩ := pixels_merged hn hc hm hk
    rw [sampleAt_eq hk (hn.pixels ▸ hk), sampleAt_eq (hc.pixels ▸ hk) (hm.pixels ▸ hk)] at hnewColor hnewCount
    refine ⟨_, _, _, _, Array.getElem?_eq_getElem hk, ?_, ?_, ?_, hnewColor, ?_⟩
    · rw [pixel?, hn.offset_eq, Array.getElem?_eq_getElem]
    · rw [pixel?, hc.offset_eq, Array.getElem?_eq_getElem]
    · rw [pixel?, hm.offset_eq, Array.getElem?_eq_getElem]
    · have hoffset : (accColor.mergedCount accCount color count).offset x y = accColor.offset x y := hn.offset_eq x y
      rw [pixel?, hoffset, hnewCount]
  · obtain ⟨other, -, -, hmerge⟩ := mergeInto_of_not_size _ _ _ _ hsizes
    rw [hmerge] at h
    cases h

end Formed

/-- Samples, buffers and images merge alike, bit for bit, and in place as well. Buffers are refused exactly if their
lengths do not agree, and otherwise three values for each pixel become the colour that the samples of the pixel merge
to. Images are refused exactly if one of them is not of the size of the accumulated colours, and otherwise each pixel
becomes what its samples merge to, with the count in all three components. What is refused is left as it was.

The values that counts ask for are numbered exactly here. The program numbers them in a word, and gives up where they
do not fit in one and it comes to their number (`Weighted.canBlend`); the three values of a colour always fit. -/
theorem merges_alike (acc src : Weighted Binary32) (numChan : Nat) (haccColor : accColor.Formed)
    (haccCount : accCount.Formed) (hcolor : color.Formed) (hcount : count.Formed) :
    (acc.blendInPlace src numChan = some (inPlace acc (acc.blend src numChan)) ∧
      ((∃ e, acc.blend src numChan = .error e) ↔ src.values.size ≠ acc.values.size ∨
        src.counts.size ≠ acc.counts.size ∨ acc.counts.size * numChan ≠ acc.values.size) ∧
      ∀ merged, acc.blend src 3 = .ok merged →
        merged.values.size = acc.values.size ∧ merged.counts.size = acc.counts.size ∧
        ∀ pixel < acc.counts.size, merged.sample pixel = (acc.sample pixel).merge (src.sample pixel)) ∧
    (accColor.mergeInPlace accCount color count =
        some (inPlace (accColor, accCount) (accColor.mergeInto accCount color count)) ∧
      ((∃ e, accColor.mergeInto accCount color count = .error e) ↔ accCount.size ≠ accColor.size ∨
        color.size ≠ accColor.size ∨ count.size ≠ accColor.size) ∧
      ∀ mergedColor mergedCount, accColor.mergeInto accCount color count = .ok (mergedColor, mergedCount) →
        mergedColor.size = accColor.size ∧ mergedCount.size = accColor.size ∧
        ∀ x < accColor.width, ∀ y < accColor.height, ∃ c n d m,
          accColor.pixel? x y = some c ∧ accCount.pixel? x y = some n ∧
          color.pixel? x y = some d ∧ count.pixel? x y = some m ∧
          let sample := Sample.merge ⟨c, n.r⟩ ⟨d, m.r⟩
          mergedColor.pixel? x y = some sample.color ∧ mergedCount.pixel? x y = some (.uniform sample.count)) := by
  refine ⟨⟨Weighted.blendInPlace_eq .., ?_, fun merged hmerged => ?_⟩, mergeInPlace_eq ..,
    mergeInto_eq_error_iff haccColor haccCount hcolor hcount,
    fun newColor newCount => pixel?_of_mergeInto haccColor haccCount hcolor hcount⟩
  · rw [Weighted.blend_eq_error_iff, Weighted.fits_iff, not_and_or, not_and_or]
  · obtain ⟨hfits, rfl⟩ := Weighted.blend_eq_ok_iff.mp hmerged
    exact ⟨Weighted.size_values_blended .., Weighted.size_counts_blended ..,
      fun pixel => Weighted.sample_blended (Weighted.mismatch?_eq_none_iff.mp hfits)⟩

/-- Two pixels, one with rays on both sides and one with a negative sum of counts, and a pattern that is not a
number. -/
theorem merges_alike_twoPixels :
    let number (n : Nat) : Binary32 := Binary32.ofNat n
    let acc : RgbImage := ⟨2, 1, #[⟨number 4, .zero, ⟨0x7fc00001⟩⟩, .uniform .one]⟩
    let accCount : RgbImage := ⟨2, 1, #[.uniform .one, .uniform ⟨0xbf800000⟩]⟩
    let color : RgbImage := ⟨2, 1, #[.uniform (number 8), .uniform (number 7)]⟩
    let count : RgbImage := ⟨2, 1, #[⟨number 3, number 9, number 9⟩, .uniform .zero]⟩
    acc.mergeInto accCount color count = .ok
        (⟨2, 1, #[⟨number 7, number 6, ⟨0x7fc00001⟩⟩, .uniform .zero]⟩,
          ⟨2, 1, #[.uniform (number 4), .uniform .zero]⟩) ∧
      ∃ c n d m, acc.pixel? 0 0 = some c ∧ accCount.pixel? 0 0 = some n ∧ color.pixel? 0 0 = some d ∧
        count.pixel? 0 0 = some m ∧
        (Sample.merge ⟨c, n.r⟩ ⟨d, m.r⟩).color = ⟨number 7, number 6, ⟨0x7fc00001⟩⟩ := by
  intro number acc accCount color count
  have hmerged : acc.mergeInto accCount color count = .ok
      (⟨2, 1, #[⟨number 7, number 6, ⟨0x7fc00001⟩⟩, .uniform .zero]⟩,
        ⟨2, 1, #[.uniform (number 4), .uniform .zero]⟩) := by decide +kernel
  have haccColor : acc.Formed := ⟨rfl, by decide, by decide⟩
  have haccCount : accCount.Formed := ⟨rfl, by decide, by decide⟩
  have hcolor : color.Formed := ⟨rfl, by decide, by decide⟩
  have hcount : count.Formed := ⟨rfl, by decide, by decide⟩
  obtain ⟨-, -, -, hpixels⟩ := merges_alike (acc.weighted accCount) (color.weighted count) 3 haccColor haccCount hcolor
    hcount
  obtain ⟨-, -, hpixel⟩ := hpixels _ _ hmerged
  obtain ⟨c, n, d, m, hc, hn, hd, hm, hnew, -⟩ := hpixel 0 (by decide) 0 (by decide)
  exact ⟨hmerged, c, n, d, m, hc, hn, hd, hm, (Option.some.inj hnew).symm⟩

end ProgressiveFrame.RgbImage
