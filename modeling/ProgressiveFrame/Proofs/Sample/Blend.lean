import ProgressiveFrame.Proofs.Bounds.Slice
import ProgressiveFrame.Sample

/-!
# A blend is a merge in each pixel

A blend goes over flat buffers of values and counts, and finds the pixel of a value by its place. What it leaves in a
pixel is what the values of both buffers there merge to, operation by operation, so also for counts that are negative or
not a number.

* `Cell`: the values of one pixel with its ray count. `Cell.merge` is the law for any number of values, and
  `Sample.cell_merge` says that it is that of samples where there are three.
* `Weighted.Fits`: the lengths with which a blend is not refused (`mismatch?_eq_none_iff`).
* `Weighted.extract_blended`: the values of one pixel after a blend.
* `Weighted.cell_blended`, `Weighted.sample_blended`: the pixel as a cell, and as a sample.
-/

namespace ProgressiveFrame

variable {α : Type}

/-! ## Cells -/

/-- The values of a pixel, averaged over `count` rays. -/
structure Cell (α : Type) where
  values : Array α
  count : α
deriving DecidableEq

/-- The values of a sample in a row. -/
def Sample.cell (s : Sample α) : Cell α := ⟨#[s.color.r, s.color.g, s.color.b], s.count⟩

theorem Sample.eq_of_cell_eq {s t : Sample α} (h : s.cell = t.cell) : s = t := by
  obtain ⟨⟨r, g, b⟩, n⟩ := s
  obtain ⟨⟨r', g', b'⟩, n'⟩ := t
  simpa [cell] using h

section Scalar

variable [Scalar α]

/-- The cell of the rays of both sides. Its values are zero unless their number is positive. -/
def Cell.merge (a b : Cell α) : Cell α :=
  let total := a.count + b.count
  if Scalar.lt Scalar.zero total then
    let wa := a.count / total
    let wb := b.count / total
    ⟨Array.zipWith (fun va vb => va * wa + vb * wb) a.values b.values, total⟩
  else ⟨a.values.map fun _ => Scalar.zero, Scalar.zero⟩

theorem Sample.cell_merge (a b : Sample α) : (a.merge b).cell = a.cell.merge b.cell := by
  by_cases hrays : Scalar.lt Scalar.zero (a.count + b.count)
  · simp [Sample.merge, Cell.merge, cell, hrays, Rgb.zipWith]
  · simp [Sample.merge, Cell.merge, cell, hrays, Sample.zero, Rgb.uniform]

/-- A merge in terms of the shares of the two ray counts. -/
theorem Cell.merge_eq (a b : Cell α) : a.merge b =
    ⟨match shares? a.count b.count with
      | some (wa, wb) => Array.zipWith (fun v w => v * wa + w * wb) a.values b.values
      | none => a.values.map fun _ => Scalar.zero,
    totalCount a.count b.count⟩ := by
  simp only [merge, shares?, totalCount]
  split <;> rfl

/-- A merged cell has rays, or it has none and its values are zero. -/
theorem Cell.merge_hasRays_or_zero (a b : Cell α) : Scalar.lt Scalar.zero (a.merge b).count = true ∨
    (a.merge b).count = Scalar.zero ∧ ∀ v ∈ (a.merge b).values, v = Scalar.zero := by
  rw [merge]
  split
  · exact .inl ‹_›
  · refine .inr ⟨rfl, fun v hv => ?_⟩
    obtain ⟨w, -, rfl⟩ := Array.mem_map.mp hv
    rfl

end Scalar

/-! ## Blends -/

namespace Weighted

variable {acc src : Weighted α} {numChan pixel : Nat}

/-- The lengths of two buffers agree with each other, and there are values for each pixel. -/
structure Fits (acc src : Weighted α) (numChan : Nat) : Prop where
  values : src.values.size = acc.values.size
  counts : src.counts.size = acc.counts.size
  pixels : acc.counts.size * numChan = acc.values.size

theorem fits_iff : acc.Fits src numChan ↔ src.values.size = acc.values.size ∧ src.counts.size = acc.counts.size ∧
    acc.counts.size * numChan = acc.values.size :=
  ⟨fun h => ⟨h.values, h.counts, h.pixels⟩, fun h => ⟨h.1, h.2.1, h.2.2⟩⟩

theorem mismatch?_eq_none_iff : acc.mismatch? src numChan = none ↔ acc.Fits src numChan := by
  rw [mismatch?]
  constructor
  · intro h
    split at h
    · cases h
    · split at h
      · cases h
      · split at h
        · cases h
        · rename_i hvalues hcounts hpixels
          rw [ne_eq, Decidable.not_not] at hvalues hcounts hpixels
          exact ⟨hvalues, hcounts.symm, hpixels⟩
  · intro h
    rw [if_neg (not_not.mpr h.values), if_neg (not_not.mpr h.counts.symm), if_neg (not_not.mpr h.pixels)]

theorem Fits.size_src (h : acc.Fits src numChan) : src.values.size = acc.counts.size * numChan :=
  h.values.trans h.pixels.symm

section Scalar

variable [Scalar α]

theorem blend_eq_ok (h : acc.Fits src numChan) : acc.blend src numChan = .ok (acc.blended src numChan) :=
  blend_eq_ok_iff.mpr ⟨mismatch?_eq_none_iff.mpr h, rfl⟩

/-- A blend is refused exactly if the lengths do not agree. -/
theorem blend_eq_error_iff : (∃ e, acc.blend src numChan = .error e) ↔ ¬ acc.Fits src numChan := by
  rw [← mismatch?_eq_none_iff, blend]
  cases acc.mismatch? src numChan with
  | none => simp
  | some e => simp

/-- The values of a pixel with its ray count. -/
def cell (w : Weighted α) (numChan pixel : Nat) : Cell α :=
  ⟨w.values.extract (pixel * numChan) ((pixel + 1) * numChan), w.count pixel⟩

/-- A pixel of a buffer with three values for each. -/
def sample (w : Weighted α) (pixel : Nat) : Sample α :=
  let value (k : Nat) := w.values.getD k Scalar.zero
  ⟨⟨value (3 * pixel), value (3 * pixel + 1), value (3 * pixel + 2)⟩, w.count pixel⟩

/-- The values that a blend gives a pixel. -/
theorem extract_blended (h : acc.Fits src numChan) (hpixel : pixel < acc.counts.size) :
    (acc.blended src numChan).values.extract (pixel * numChan) ((pixel + 1) * numChan) =
      ((acc.cell numChan pixel).merge (src.cell numChan pixel)).values := by
  obtain ⟨-, hlast⟩ := slot_le_size numChan hpixel
  have hacc : (pixel + 1) * numChan ≤ acc.values.size := h.pixels ▸ hlast
  have hsrc : (pixel + 1) * numChan ≤ src.values.size := h.size_src ▸ hlast
  have hin {j : Nat} (hj : j < numChan) : pixel * numChan + j < (pixel + 1) * numChan := by
    rw [Nat.succ_mul]
    omega
  have hown {j : Nat} (hj : j < numChan) := Array.getElem?_eq_getElem (Nat.lt_of_lt_of_le (hin hj) hacc)
  have hother {j : Nat} (hj : j < numChan) := Array.getElem?_eq_getElem (Nat.lt_of_lt_of_le (hin hj) hsrc)
  symm
  rw [Cell.merge_eq]
  refine eq_extract_slot (by rwa [size_values_blended]) ?_ fun j hj => ?_
  · dsimp only [cell]
    split
    · rw [Array.size_zipWith, size_extract_slot hacc, size_extract_slot hsrc, Nat.min_self]
    · rw [Array.size_map, size_extract_slot hacc]
  · simp only [cell, blended, Array.getElem?_mapIdx, div_of_slot hj, hown hj, Option.map_some]
    cases shares? (acc.count pixel) (src.count pixel) with
    | none => rw [Array.getElem?_map, getElem?_extract_slot hacc hj, hown hj, Option.map_some]
    | some shares =>
      simp only [Array.getElem?_zipWith, getElem?_extract_slot hacc hj, getElem?_extract_slot hsrc hj, hown hj,
        hother hj, Array.getD_eq_getD_getElem?, Option.getD_some]

theorem count_blended (src : Weighted α) (numChan : Nat) (hpixel : pixel < acc.counts.size) :
    (acc.blended src numChan).count pixel = totalCount (acc.count pixel) (src.count pixel) := by
  simp [blended, count, hpixel]

/-- A blend merges the pixels. -/
theorem cell_blended (h : acc.Fits src numChan) (hpixel : pixel < acc.counts.size) :
    (acc.blended src numChan).cell numChan pixel = (acc.cell numChan pixel).merge (src.cell numChan pixel) := by
  rw [cell, extract_blended h hpixel, count_blended src numChan hpixel, Cell.merge_eq]
  rfl

theorem cell_eq_cell_sample {w : Weighted α} (h : 3 * pixel + 3 ≤ w.values.size) :
    w.cell 3 pixel = (w.sample pixel).cell := by
  refine congrArg (Cell.mk · _) (Eq.symm (eq_extract_slot (by omega) rfl fun j hj => ?_))
  have hat : w.values[pixel * 3 + j]? = some (w.values.getD (3 * pixel + j) Scalar.zero) := by
    rw [Nat.mul_comm, Array.getElem?_eq_getElem (by omega), Array.getD_eq_getD_getElem?,
      Array.getElem?_eq_getElem (by omega), Option.getD_some]
  obtain rfl | rfl | rfl : j = 0 ∨ j = 1 ∨ j = 2 := by omega
  all_goals exact hat.symm

/-- With three values for each pixel, a blend merges the samples of the pixels. -/
theorem sample_blended (h : acc.Fits src 3) (hpixel : pixel < acc.counts.size) :
    (acc.blended src 3).sample pixel = (acc.sample pixel).merge (src.sample pixel) := by
  have hacc : 3 * pixel + 3 ≤ acc.values.size := by
    have := h.pixels
    omega
  have hsrc : 3 * pixel + 3 ≤ src.values.size := h.values ▸ hacc
  refine Sample.eq_of_cell_eq ?_
  rw [Sample.cell_merge, ← cell_eq_cell_sample hacc, ← cell_eq_cell_sample hsrc,
    ← cell_eq_cell_sample (by rwa [size_values_blended]), cell_blended h hpixel]

end Scalar

end Weighted

end ProgressiveFrame
