import ProgressiveFrame.Proofs.Sample.Blend

/-!
# A blend stays in its buffers

A blend goes through the pixels, and writes the values of one after those of the other. Once the lengths of the buffers
agree, every pixel has its values in both of them.

* `Weighted.blendChecked`: a blend that asks for each part of the buffers before it reads or writes it.
* `Weighted.blendChecked_eq`: it has a result, and the result is that of `Weighted.blend`.
* `Weighted.blendInPlace`: a blend that writes each pixel over the accumulated one, values and count.
* `Weighted.blendInPlace_eq`: it leaves the result of `Weighted.blend`, or the buffer as it was (`inPlace`).
-/

namespace ProgressiveFrame

/-- What an operation leaves that writes over what is there: its result, or what was there when it is refused. -/
def inPlace {σ ε : Type} (before : σ) : Except ε σ → σ × Except ε Unit
  | .ok after => (after, .ok ())
  | .error e => (before, .error e)

namespace Weighted

variable {α : Type} [Scalar α] {acc src : Weighted α} {numChan : Nat}

/-- The values of one pixel are blended, where both buffers have them. -/
def blendPixel (acc src : Weighted α) (numChan : Nat) (values : Array α) (pixel : Nat) : Option (Array α) := do
  let first := pixel * numChan
  let last := (pixel + 1) * numChan
  let own ← slice? values first last
  match shares? (acc.count pixel) (src.count pixel) with
  | some (wa, wb) =>
    let others ← slice? src.values first last
    writeSlice? values first last (Array.zipWith (fun value other => value * wa + other * wb) own others)
  | none => writeSlice? values first last (own.map fun _ => Scalar.zero)

/-- A blend that asks for the values of each pixel before it touches them. -/
def blendChecked (acc src : Weighted α) (numChan : Nat) : Option (Except FrameError (Weighted α)) :=
  match acc.mismatch? src numChan with
  | some e => some (.error e)
  | none => do
    let values ← (List.range acc.counts.size).foldlM (acc.blendPixel src numChan) acc.values
    return .ok ⟨values, acc.counts.mapIdx fun pixel n => totalCount n (src.count pixel)⟩

theorem Fits.slotted (h : acc.Fits src numChan) :
    Slotted numChan acc.counts.size acc.values (acc.blended src numChan).values :=
  ⟨h.pixels.symm, (size_values_blended ..).trans h.pixels.symm⟩

/-- The step of one pixel leaves the values that the blend gives the pixel. -/
theorem blendPixel_patched (h : acc.Fits src numChan) {pixel : Nat} (hpixel : pixel < acc.counts.size)
    {done : List Nat} (hnot : pixel ∉ done) :
    acc.blendPixel src numChan (patched numChan acc.values (acc.blended src numChan).values done) pixel =
      some (patched numChan acc.values (acc.blended src numChan).values (done ++ [pixel])) := by
  obtain ⟨hfirst, hlast⟩ := slot_le_size numChan hpixel
  have hothers : slice? src.values (pixel * numChan) ((pixel + 1) * numChan) = some (src.cell numChan pixel).values :=
    slice?_of_le hfirst (h.size_src ▸ hlast)
  have hvalues := extract_blended h hpixel
  rw [Cell.merge_eq] at hvalues
  rw [blendPixel, h.slotted.slice?_patched hpixel, if_neg hnot, Option.bind_eq_bind, Option.bind_some]
  split
  · rename_i wa wb hshares
    rw [hothers]
    refine h.slotted.writeSlice?_patched done hpixel (Eq.trans ?_ hvalues.symm)
    simp only [cell, hshares]
  · rename_i hshares
    refine h.slotted.writeSlice?_patched done hpixel (Eq.trans ?_ hvalues.symm)
    simp only [cell, hshares]

/-- A blend never asks for what is not there. -/
theorem blendChecked_eq (acc src : Weighted α) (numChan : Nat) :
    acc.blendChecked src numChan = some (acc.blend src numChan) := by
  rw [blendChecked, blend]
  cases hm : acc.mismatch? src numChan with
  | some e => rfl
  | none =>
    have h : acc.Fits src numChan := mismatch?_eq_none_iff.mp hm
    have hloop : (List.range acc.counts.size).foldlM (acc.blendPixel src numChan) acc.values =
        some (acc.blended src numChan).values := by
      refine h.slotted.foldlM_eq (fun pixel => [pixel]) (fun pre pixel post hsplit => ?_) fun k hk hnot => ?_
      · have hpixel : pixel < acc.counts.size := by
          rw [← List.mem_range, hsplit]
          simp
        have hnodup : (pre ++ pixel :: post).Nodup := hsplit ▸ List.nodup_range
        rw [List.flatMap_singleton']
        exact blendPixel_patched h hpixel fun hmem => List.disjoint_of_nodup_append hnodup hmem List.mem_cons_self
      · rw [List.flatMap_singleton'] at hnot
        exact absurd (List.mem_range.mpr hk) hnot
    simp only [hloop]
    rfl

/-! ## In place -/

/-- A pixel of a buffer is overwritten, first its values and then its count. -/
def absorbPixel (src : Weighted α) (numChan : Nat) (acc : Weighted α) (pixel : Nat) : Option (Weighted α) := do
  let values ← acc.blendPixel src numChan acc.values pixel
  let counts ← writeSlice? acc.counts pixel (pixel + 1) #[totalCount (acc.count pixel) (src.count pixel)]
  return ⟨values, counts⟩

/-- A blend that writes over the accumulated buffer, once it has found nothing to refuse. -/
def blendInPlace (acc src : Weighted α) (numChan : Nat) : Option (Weighted α × Except FrameError Unit) :=
  match acc.mismatch? src numChan with
  | some e => some (acc, .error e)
  | none => do return (← (List.range acc.counts.size).foldlM (absorbPixel src numChan) acc, .ok ())

/-- The buffer when the first pixels are blended. -/
def blendedBelow (acc src : Weighted α) (numChan n : Nat) : Weighted α where
  values := patched numChan acc.values (acc.blended src numChan).values (List.range n)
  counts := patched 1 acc.counts (acc.blended src numChan).counts (List.range n)

theorem slotted_counts (acc src : Weighted α) (numChan : Nat) :
    Slotted 1 acc.counts.size acc.counts (acc.blended src numChan).counts :=
  ⟨(Nat.mul_one _).symm, by rw [size_counts_blended, Nat.mul_one]⟩

/-- The count of a pixel is read before it is written. -/
theorem count_blendedBelow (acc src : Weighted α) (numChan pixel : Nat) :
    (acc.blendedBelow src numChan pixel).count pixel = acc.count pixel := by
  have hat := (slotted_counts acc src numChan).getElem?_patched (List.range pixel) pixel
  rw [Nat.div_one, if_neg List.not_mem_range_self] at hat
  rw [count, count, blendedBelow, Array.getD_eq_getD_getElem?, Array.getD_eq_getD_getElem?, hat]

theorem absorbPixel_blendedBelow (h : acc.Fits src numChan) {pixel : Nat} (hpixel : pixel < acc.counts.size) :
    absorbPixel src numChan (acc.blendedBelow src numChan pixel) pixel =
      some (acc.blendedBelow src numChan (pixel + 1)) := by
  have hvalues : (acc.blendedBelow src numChan pixel).blendPixel src numChan
      (acc.blendedBelow src numChan pixel).values pixel = some (acc.blendedBelow src numChan (pixel + 1)).values := by
    rw [blendPixel, count_blendedBelow]
    exact (blendPixel_patched h hpixel List.not_mem_range_self).trans (by rw [← List.range_succ]; rfl)
  have hcount : #[totalCount (acc.count pixel) (src.count pixel)] =
      (acc.blended src numChan).counts.extract (pixel * 1) ((pixel + 1) * 1) := by
    refine eq_extract_slot (by rw [size_counts_blended, Nat.mul_one]; exact hpixel) rfl fun j hj => ?_
    obtain rfl : j = 0 := by omega
    simp [blended, count, hpixel]
  have hcounts := (slotted_counts acc src numChan).writeSlice?_patched (List.range pixel) hpixel hcount
  rw [Nat.mul_one, Nat.mul_one, ← List.range_succ] at hcounts
  rw [absorbPixel, hvalues, count_blendedBelow]
  simp only [blendedBelow, hcounts, Option.bind_eq_bind, Option.bind_some]
  rfl

/-- A blend in place leaves the blended buffer, and nothing is written by one that is refused. -/
theorem blendInPlace_eq (acc src : Weighted α) (numChan : Nat) :
    acc.blendInPlace src numChan = some (inPlace acc (acc.blend src numChan)) := by
  rw [blendInPlace, blend]
  cases hm : acc.mismatch? src numChan with
  | some e => rfl
  | none =>
    have h : acc.Fits src numChan := mismatch?_eq_none_iff.mp hm
    have hrun := foldlM_range (acc.blendedBelow src numChan) fun pixel => absorbPixel_blendedBelow h
    have hstart : acc.blendedBelow src numChan 0 = acc := by simp [blendedBelow]
    have hend : acc.blendedBelow src numChan acc.counts.size = acc.blended src numChan := by
      rw [blendedBelow, h.slotted.patched_eq fun k hk hnot => absurd (List.mem_range.mpr hk) hnot,
        (slotted_counts acc src numChan).patched_eq fun k hk hnot => absurd (List.mem_range.mpr hk) hnot]
    rw [hstart, hend] at hrun
    simp only [hrun]
    rfl

end Weighted

end ProgressiveFrame
