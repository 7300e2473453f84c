import ProgressiveFrame.Limits
import ProgressiveFrame.Proofs.Bounds.Blend
import ProgressiveFrame.Verify.Check

/-!
# The checks of a frame come to an end

The checks of the dumps of a frame make a black image of the size of the image of all machines and blend contributions
into it. With an image of this size at hand, another one can be held and its components can be counted.

* `SampledImage.mergeChecked`, `FrameDumps.combineChecked`: a merge and a combination that ask first.
* `FrameDumps.verifyChecked`: all checks, with combinations that ask first.
* `FrameDumps.verifyChecked_eq`: they have a result, and the result is that of `FrameDumps.verify`.
-/

namespace ProgressiveFrame

/-- A merge that asks whether the components can be counted, and for each part of the buffers. -/
def RgbImage.mergeIntoChecked (accColor accCount color count : RgbImage) :
    ExceptT FrameError Option (RgbImage × RgbImage) :=
  match [accCount, color, count].find? fun other => !accColor.sameSize other with
  | some other => throw (.layoutMismatch accColor.size other.size)
  | none => do
    let acc : Weighted Binary32 := ⟨accColor.interleaved, accCount.counts⟩
    let src : Weighted Binary32 := ⟨color.interleaved, count.counts⟩
    let merged ← ExceptT.mk (if acc.canBlend src 3 then acc.blendChecked src 3 else none)
    return (accColor.withInterleaved merged.values, accCount.withCounts merged.counts)

/-- The black image of no rays, if there is room for it. -/
def SampledImage.zeroChecked (width height : Nat) : ExceptT FrameError Option SampledImage :=
  ExceptT.lift (if RgbImage.canHold width height then some (.zero width height) else none)

/-- A merge of images with their counts that asks first. -/
def SampledImage.mergeChecked (acc i : SampledImage) : ExceptT FrameError Option SampledImage := do
  let (beauty, numSample) ← acc.beauty.mergeIntoChecked acc.numSample i.beauty i.numSample
  return ⟨beauty, numSample⟩

namespace FrameDumps

/-- A combination of images that asks first. -/
def combineChecked (width height : Nat) (parts : List SampledImage) : ExceptT FrameError Option SampledImage := do
  parts.foldlM SampledImage.mergeChecked (← SampledImage.zeroChecked width height)

/-- A combination of the contributions of some machines that asks first. -/
def combineMergedChecked (d : FrameDumps) (machines : List MachineDumps) : Option (Except FrameError SampledImage) :=
  (combineChecked d.mergeAll.beauty.width d.mergeAll.beauty.height (machines.map (·.merged))).run

/-- What is wrong with the combination of all contributions, if it can be had. -/
def recombinedFailuresChecked (d : FrameDumps) : Option (List CheckFailure) := do
  match ← d.combineMergedChecked d.machines with
  | .error cause => return [.combiningFailed cause]
  | .ok combined =>
    return d.machines.filterMap fun m =>
      if m.feedback.isSame combined then none else some (.recombinedDiffers m.machine)

/-- What is wrong with the combination of all contributions but that of one machine, if it can be had. -/
def minusOneFailureChecked (d : FrameDumps) (m : MachineDumps) : Option (Option CheckFailure) := do
  match ← d.combineMergedChecked (d.machines.filter (·.machine != m.machine)) with
  | .error cause => return some (.minusOneFailed m.machine cause)
  | .ok expected => return if expected.isSame m.minusOne then none else some (.minusOneDiffers m.machine)

/-- Makes all checks, if the combinations can be had. -/
def verifyChecked (d : FrameDumps) (frame : Nat) : Option VerifyReport := do
  let recombined ← d.recombinedFailuresChecked
  let minusOne ← d.machines.mapM d.minusOneFailureChecked
  return {
    frame
    machines := d.machines.length
    checks := [
      ⟨.mergeAllVsFeedback, d.machines.filterMap d.feedbackFailure?⟩,
      ⟨.mergeVsDecoded, d.machines.filterMap d.mergeFailure?⟩,
      ⟨.mergedReconstructsFeedback, recombined⟩,
      ⟨.minusOne, minusOne.filterMap id⟩] }

end FrameDumps

/-! ## Combinations -/

variable {width height : Nat}

/-- Three components of each pixel can be counted where twelve bytes of each can be held. -/
theorem isLongWord_of_canHold (h : RgbImage.canHold width height = true) : isLongWord (width * height * 3) = true := by
  have hbytes : width * height * 12 < 0x8000000000000000 := of_decide_eq_true h
  exact decide_eq_true (by omega)

theorem RgbImage.mergeIntoChecked_eq {accColor accCount color count : RgbImage}
    (h : isLongWord (accCount.pixels.size * 3) = true) :
    accColor.mergeIntoChecked accCount color count = ExceptT.mk (some (accColor.mergeInto accCount color count)) := by
  simp only [mergeIntoChecked, mergeInto]
  cases [accCount, color, count].find? fun other => !accColor.sameSize other with
  | some other => rfl
  | none =>
    have hcan :
        (Weighted.mk accColor.interleaved accCount.counts).canBlend ⟨color.interleaved, count.counts⟩ 3 = true := by
      simp [Weighted.canBlend, counts, h]
    rw [if_pos hcan, Weighted.blendChecked_eq]
    cases Weighted.blend ⟨accColor.interleaved, accCount.counts⟩ ⟨color.interleaved, count.counts⟩ 3 <;> rfl

/-- A merge leaves the number of pixels as it is. -/
theorem SampledImage.size_of_merge {acc i r : SampledImage} (h : acc.merge i = .ok r) :
    r.numSample.pixels.size = acc.numSample.pixels.size := by
  simp only [merge, RgbImage.mergeInto] at h
  cases hfind : [acc.numSample, i.beauty, i.numSample].find? fun other => !acc.beauty.sameSize other with
  | some other =>
    rw [hfind] at h
    cases h
  | none =>
    rw [hfind] at h
    cases hblend : (Weighted.mk acc.beauty.interleaved acc.numSample.counts).blend
        ⟨i.beauty.interleaved, i.numSample.counts⟩ 3 with
    | error e =>
      simp only [hblend] at h
      cases h
    | ok merged =>
      simp only [hblend] at h
      cases h
      simp [RgbImage.withCounts]

theorem SampledImage.mergeChecked_eq {acc i : SampledImage} (h : isLongWord (acc.numSample.pixels.size * 3) = true) :
    acc.mergeChecked i = ExceptT.mk (some (acc.merge i)) := by
  rw [mergeChecked, RgbImage.mergeIntoChecked_eq h, merge]
  cases acc.beauty.mergeInto acc.numSample i.beauty i.numSample <;> rfl

namespace FrameDumps

theorem foldlM_mergeChecked_eq {acc : SampledImage} (h : isLongWord (acc.numSample.pixels.size * 3) = true)
    (parts : List SampledImage) :
    parts.foldlM SampledImage.mergeChecked acc = ExceptT.mk (some (parts.foldlM SampledImage.merge acc)) := by
  induction parts generalizing acc with
  | nil => rfl
  | cons part parts ih =>
    rw [List.foldlM_cons, List.foldlM_cons, SampledImage.mergeChecked_eq h]
    cases hmerge : acc.merge part with
    | error e => rfl
    | ok r => exact ih (by rwa [SampledImage.size_of_merge hmerge])

/-- A combination never asks for what is not there. -/
theorem combineChecked_eq (h : RgbImage.canHold width height = true) (parts : List SampledImage) :
    (combineChecked width height parts).run = some (combine width height parts) := by
  have hzero : isLongWord ((SampledImage.zero width height).numSample.pixels.size * 3) = true := by
    rw [SampledImage.zero, RgbImage.size_pixels_black]
    exact isLongWord_of_canHold h
  have hfold := foldlM_mergeChecked_eq hzero parts
  rw [combineChecked, SampledImage.zeroChecked, if_pos h]
  exact hfold

/-- With an image of the size at hand, all checks come to an end, and find what `verify` finds. -/
theorem verifyChecked_eq (d : FrameDumps) (frame : Nat)
    (h : RgbImage.canHold d.mergeAll.beauty.width d.mergeAll.beauty.height = true) :
    d.verifyChecked frame = some (d.verify frame) := by
  have hcombine (machines : List MachineDumps) : d.combineMergedChecked machines = some (d.combineMerged machines) :=
    combineChecked_eq h _
  have hrecombined : d.recombinedFailuresChecked = some d.recombinedFailures := by
    rw [recombinedFailuresChecked, hcombine, recombinedFailures]
    cases d.combineMerged d.machines <;> rfl
  have hminusOne : d.machines.mapM d.minusOneFailureChecked = some (d.machines.map d.minusOneFailure?) := by
    have hone : d.minusOneFailureChecked = fun m => some (d.minusOneFailure? m) := by
      funext m
      rw [minusOneFailureChecked, hcombine, minusOneFailure?]
      cases d.combineMerged (d.machines.filter (·.machine != m.machine)) <;> rfl
    rw [hone]
    exact List.mapM_pure
  have hgather : (d.machines.map d.minusOneFailure?).filterMap id = d.machines.filterMap d.minusOneFailure? :=
    List.filterMap_map ..
  rw [verifyChecked, hrecombined, hminusOne, Option.bind_eq_bind, Option.bind_some, Option.bind_eq_bind,
    Option.bind_some, hgather]
  rfl

end FrameDumps

end ProgressiveFrame
