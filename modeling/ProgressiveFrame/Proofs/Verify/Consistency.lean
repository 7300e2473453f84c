import Mathlib.Data.List.FinRange
import ProgressiveFrame.Proofs.Bounds.Verify
import ProgressiveFrame.Proofs.Verify.Combine

/-!
# Consistent dumps and no others pass

Four things are asked of each machine of a frame, and each of them is one check. The dumps pass if and only if all of
them hold, and a check lists the machines of which its thing does not hold.

* `FrameDumps.Holds`: what a check asks of a machine. The two checks that combine images ask for the samples of all
  machines, or of all others, merged pixel by pixel.
* `FrameDumps.Lists`: what a check lists are its offenders. Where contributions differ in size from the image of all
  machines, the check that combines all of them lists nothing but this.
* `Reports.machines_filterMap`, `recombinedFailures_of_fit`: so it is for each check (`lists_verify`).
* `FrameDumps.verify_passed_iff`: the verdict on a frame.
-/

namespace ProgressiveFrame

/-- The machine that a failure is about. -/
def CheckFailure.machine? : CheckFailure → Option Nat
  | .feedbackDiffers m | .decodedDiffers m | .noMergeDump m | .recombinedDiffers m => some m
  | .minusOneDiffers m | .minusOneFailed m _ => some m
  | .combiningFailed _ => none

namespace FrameDumps

variable {d : FrameDumps} {check : Check}

/-- The contributions of some machines have the size of the image of all machines. -/
def Fit (d : FrameDumps) (machines : List MachineDumps) : Prop :=
  ∀ m ∈ machines, m.merged.HasSize d.mergeAll.beauty.width d.mergeAll.beauty.height

instance (d : FrameDumps) (machines : List MachineDumps) : Decidable (d.Fit machines) :=
  inferInstanceAs (Decidable (∀ m ∈ machines, _))

/-- The image in which each pixel is what some machines contribute to it, merged in their order. -/
def accumulated (d : FrameDumps) (machines : List MachineDumps) : SampledImage :=
  .accumulated d.mergeAll.beauty.width d.mergeAll.beauty.height (machines.map (·.merged))

/-- What a check asks of the machine in a place of the list. -/
def Holds (d : FrameDumps) (i : Fin d.machines.length) : Check → Prop
  | .mergeAllVsFeedback => (d.machines.get i).feedback.isSame d.mergeAll = true
  | .mergeVsDecoded =>
    ∃ image, d.merge[(d.machines.get i).machine]? = some image ∧ image.isSame (d.machines.get i).decoded = true
  | .mergedReconstructsFeedback =>
    d.Fit d.machines ∧ (d.machines.get i).feedback.isSame (d.accumulated d.machines) = true
  | .minusOne =>
    d.Fit (d.machines.eraseIdx i) ∧ (d.accumulated (d.machines.eraseIdx i)).isSame (d.machines.get i).minusOne = true

instance (d : FrameDumps) (i : Fin d.machines.length) : (check : Check) → Decidable (d.Holds i check)
  | .mergeAllVsFeedback => inferInstanceAs (Decidable (_ = true))
  | .mergeVsDecoded =>
    decidable_of_iff ((d.merge[(d.machines.get i).machine]?).any (·.isSame (d.machines.get i).decoded) = true)
      (by rw [Option.any_eq_true]; rfl)
  | .mergedReconstructsFeedback => inferInstanceAs (Decidable (_ ∧ _ = true))
  | .minusOne => inferInstanceAs (Decidable (_ ∧ _ = true))

/-- The machines of which a check finds something wrong, in their order. -/
def offenders (d : FrameDumps) (check : Check) : List Nat :=
  ((List.finRange d.machines.length).filter fun i => !decide (d.Holds i check)).map fun i => (d.machines.get i).machine

theorem offenders_eq_nil_iff : d.offenders check = [] ↔ ∀ i, d.Holds i check := by
  simp [offenders, List.filter_eq_nil_iff]

/-- A function finds something wrong exactly with the machines of which a check does not hold, and names the machine. -/
def Reports (d : FrameDumps) (check : Check) (failure? : MachineDumps → Option CheckFailure) : Prop :=
  ∀ i : Fin d.machines.length, (d.Holds i check → failure? (d.machines.get i) = none) ∧
    (¬ d.Holds i check → ∃ f, failure? (d.machines.get i) = some f ∧ f.machine? = some (d.machines.get i).machine)

/-- A check that looks at one machine after another lists its offenders. -/
theorem Reports.machines_filterMap {failure? : MachineDumps → Option CheckFailure} (h : d.Reports check failure?) :
    (d.machines.filterMap failure?).map (·.machine?) = (d.offenders check).map some := by
  let at? (i : Fin d.machines.length) : Option CheckFailure := failure? (d.machines.get i)
  have hplaces : d.machines.filterMap failure? = (List.finRange d.machines.length).filterMap at? := by
    conv => lhs; rw [← List.map_getElem_finRange d.machines, List.filterMap_map]
    rfl
  rw [hplaces, offenders]
  induction List.finRange d.machines.length with
  | nil => rfl
  | cons i places ih =>
    by_cases hi : d.Holds i check
    · rw [List.filterMap_cons_none (f := at?) ((h i).1 hi), List.filter_cons_of_neg (by simpa using hi)]
      exact ih
    · obtain ⟨f, hf, hmachine⟩ := (h i).2 hi
      rw [List.filterMap_cons_some (f := at?) hf, List.filter_cons_of_pos (by simpa using hi), List.map_cons, ih,
        hmachine]
      rfl

/-! ## One machine after another -/

theorem reports_feedbackFailure? (d : FrameDumps) : d.Reports .mergeAllVsFeedback d.feedbackFailure? :=
  fun _ => ⟨fun h => if_pos h, fun h => ⟨_, if_neg h, rfl⟩⟩

theorem reports_mergeFailure? (d : FrameDumps) : d.Reports .mergeVsDecoded d.mergeFailure? := by
  intro i
  simp only [Holds, mergeFailure?]
  cases hm : d.merge[(d.machines.get i).machine]? with
  | none => exact ⟨nofun, fun _ => ⟨_, rfl, rfl⟩⟩
  | some image =>
    refine ⟨fun ⟨_, heq, hsame⟩ => ?_, fun hnot => ?_⟩
    · cases heq
      exact if_pos hsame
    · exact ⟨_, if_neg fun hsame => hnot ⟨image, rfl, hsame⟩, rfl⟩

/-! ## Combinations -/

/-- All others are those with another number. -/
theorem filter_eq_eraseIdx {machines : List MachineDumps} (hids : (machines.map (·.machine)).Nodup) {i : Nat}
    (hi : i < machines.length) :
    machines.filter (·.machine != machines[i].machine) = machines.eraseIdx i := by
  induction machines generalizing i with
  | nil => cases hi
  | cons m machines ih =>
    obtain ⟨hfirst, hrest⟩ := List.nodup_cons.mp hids
    have hother {other : MachineDumps} (hmem : other ∈ machines) : other.machine ≠ m.machine :=
      fun heq => hfirst (List.mem_map.mpr ⟨other, hmem, heq⟩)
    cases i with
    | zero =>
      rw [List.getElem_cons_zero, List.filter_cons_of_neg (by simp), List.eraseIdx_zero, List.tail_cons]
      exact List.filter_eq_self.mpr fun other hmem => bne_iff_ne.mpr (hother hmem)
    | succ i =>
      have hi : i < machines.length := Nat.lt_of_succ_lt_succ hi
      have hfirst : (m.machine != machines[i].machine) = true := bne_iff_ne.mpr (hother (List.getElem_mem hi)).symm
      rw [List.getElem_cons_succ, List.filter_cons, if_pos hfirst, ih hrest hi, List.eraseIdx_cons_succ]

/-- Contributions that fit combine to their merged samples, and no others combine. -/
theorem combineMerged_of_fit {machines : List MachineDumps} (hf : ∀ m ∈ machines, m.merged.Formed)
    (hfit : d.Fit machines) : d.combineMerged machines = .ok (d.accumulated machines) :=
  combine_of_hasSize (List.forall_mem_map.mpr hf) (List.forall_mem_map.mpr hfit)

theorem combineMerged_of_not_fit {machines : List MachineDumps} (hf : ∀ m ∈ machines, m.merged.Formed)
    (hfit : ¬ d.Fit machines) :
    ∃ size, d.combineMerged machines = .error (.layoutMismatch d.mergeAll.beauty.size size) :=
  combine_of_not_hasSize (List.forall_mem_map.mpr hf) fun h => hfit (List.forall_mem_map.mp h)

theorem reports_minusOneFailure? (hids : (d.machines.map (·.machine)).Nodup)
    (hf : ∀ m ∈ d.machines, m.merged.Formed) : d.Reports .minusOne d.minusOneFailure? := by
  intro i
  have hformed : ∀ m ∈ d.machines.eraseIdx i, m.merged.Formed := fun m hm => hf m (List.mem_of_mem_eraseIdx hm)
  have hothers : d.machines.filter (·.machine != (d.machines.get i).machine) = d.machines.eraseIdx i :=
    filter_eq_eraseIdx hids i.isLt
  simp only [Holds, minusOneFailure?, hothers]
  by_cases hfit : d.Fit (d.machines.eraseIdx i)
  · rw [combineMerged_of_fit hformed hfit]
    exact ⟨fun h => if_pos h.2, fun h => ⟨_, if_neg fun hsame => h ⟨hfit, hsame⟩, rfl⟩⟩
  · obtain ⟨size, herror⟩ := combineMerged_of_not_fit hformed hfit
    rw [herror]
    exact ⟨fun h => absurd h.1 hfit, fun _ => ⟨_, rfl, rfl⟩⟩

theorem recombinedFailures_of_fit (hf : ∀ m ∈ d.machines, m.merged.Formed) (hfit : d.Fit d.machines) :
    d.recombinedFailures.map (·.machine?) = (d.offenders .mergedReconstructsFeedback).map some := by
  rw [recombinedFailures, combineMerged_of_fit hf hfit]
  refine Reports.machines_filterMap fun i => ?_
  exact ⟨fun h => if_pos h.2, fun h => ⟨_, if_neg fun hsame => h ⟨hfit, hsame⟩, rfl⟩⟩

theorem recombinedFailures_of_not_fit (hf : ∀ m ∈ d.machines, m.merged.Formed) (hfit : ¬ d.Fit d.machines) :
    ∃ size, d.recombinedFailures = [.combiningFailed (.layoutMismatch d.mergeAll.beauty.size size)] := by
  obtain ⟨size, herror⟩ := combineMerged_of_not_fit hf hfit
  exact ⟨size, by rw [recombinedFailures, herror]⟩

/-! ## The verdict -/

/-- What a check lists, with the one failure for contributions of different sizes set apart. -/
structure Lists (d : FrameDumps) (r : CheckResult) : Prop where
  offenders : (r.check = .mergedReconstructsFeedback → d.Fit d.machines) →
    r.failures.map (·.machine?) = (d.offenders r.check).map some
  mismatch : r.check = .mergedReconstructsFeedback → ¬ d.Fit d.machines →
    ∃ size, r.failures = [.combiningFailed (.layoutMismatch d.mergeAll.beauty.size size)]

theorem lists_verify (hids : (d.machines.map (·.machine)).Nodup) (hf : ∀ m ∈ d.machines, m.merged.Formed)
    (frame : Nat) :
    ∀ r ∈ (d.verify frame).checks, d.Lists r := by
  simp only [verify, List.forall_mem_cons]
  refine ⟨⟨fun _ => d.reports_feedbackFailure?.machines_filterMap, nofun⟩,
    ⟨fun _ => d.reports_mergeFailure?.machines_filterMap, nofun⟩, ⟨fun h => recombinedFailures_of_fit hf (h rfl),
      fun _ => recombinedFailures_of_not_fit hf⟩, ⟨fun _ => (reports_minusOneFailure? hids hf).machines_filterMap, nofun⟩,
      nofun⟩

/-- A check passes exactly if it holds of every machine. -/
theorem Lists.failures_eq_nil_iff {r : CheckResult} (h : d.Lists r) : r.failures = [] ↔ ∀ i, d.Holds i r.check := by
  by_cases hone : r.check = .mergedReconstructsFeedback ∧ ¬ d.Fit d.machines
  · obtain ⟨hcheck, hfit⟩ := hone
    obtain ⟨size, hfailures⟩ := h.mismatch hcheck hfit
    -- There is a machine, as the contribution of one does not fit.
    have hsome : 0 < d.machines.length :=
      List.length_pos_iff.mpr fun hnil => hfit fun m hm => absurd (hnil ▸ hm) List.not_mem_nil
    rw [hfailures, hcheck]
    exact ⟨nofun, fun hall => absurd (hall ⟨0, hsome⟩).1 hfit⟩
  · have hlisted := h.offenders fun hcheck => Decidable.byContradiction fun hfit => hone ⟨hcheck, hfit⟩
    rw [← offenders_eq_nil_iff, ← List.map_eq_nil_iff (f := (·.machine?)), hlisted, List.map_eq_nil_iff]

/-- Take dumps of machines with different numbers, whose contributions are rectangles of pixels. Another image of the size
of that of all machines can be held, as that one is. Then the checks come to an end, whatever the other sizes. They all
pass if and only if each of the four things holds of each machine. Each check lists the machines of which its thing does
not hold, in their order, but for contributions of another size, of which the third check lists one failure. -/
theorem verify_passed_iff (d : FrameDumps) (frame : Nat) (hids : (d.machines.map (·.machine)).Nodup)
    (hf : ∀ m ∈ d.machines, m.merged.Formed)
    (hheld : RgbImage.canHold d.mergeAll.beauty.width d.mergeAll.beauty.height = true) :
    d.verifyChecked frame = some (d.verify frame) ∧
      ((d.verify frame).passed = true ↔ ∀ i check, d.Holds i check) ∧
      (d.verify frame).checks.map (·.check) =
        [.mergeAllVsFeedback, .mergeVsDecoded, .mergedReconstructsFeedback, .minusOne] ∧
      ∀ r ∈ (d.verify frame).checks, d.Lists r := by
  have hlists := lists_verify hids hf frame
  refine ⟨verifyChecked_eq d frame hheld, ?_, rfl, hlists⟩
  rw [VerifyReport.passed_iff]
  constructor
  · intro hall i check
    have hcheck : check ∈ (d.verify frame).checks.map (·.check) := by cases check <;> simp [verify]
    obtain ⟨r, hr, rfl⟩ := List.mem_map.mp hcheck
    exact (hlists r hr).failures_eq_nil_iff.mp (hall r hr) i
  · intro hall r hr
    exact (hlists r hr).failures_eq_nil_iff.mpr fun i => hall i r.check

/-- An image of one pixel. -/
def onePixel (color : Rgb Binary32) (count : Binary32) : SampledImage :=
  ⟨⟨1, 1, #[color]⟩, ⟨1, 1, #[.uniform count]⟩⟩

/-- One ray found red and three found blue, and the machines have received as much. The second machine has an image of
the other one. -/
def redAndBlue (other : SampledImage) : FrameDumps :=
  let red := onePixel ⟨.one, .zero, .zero⟩ .one
  let blue := onePixel ⟨.zero, .zero, .one⟩ (.ofNat 3)
  let all := onePixel ⟨Scalar.ratio 1 4, .zero, Scalar.ratio 3 4⟩ (.ofNat 4)
  ⟨all, [red, blue], [⟨0, all, red, red, blue⟩, ⟨1, all, blue, blue, other⟩]⟩

theorem verify_passed_iff_redAndBlue :
    let d := redAndBlue (onePixel ⟨.one, .zero, .zero⟩ .one)
    (d.machines.map (·.machine)).Nodup ∧ (∀ m ∈ d.machines, m.merged.Formed) ∧
      RgbImage.canHold d.mergeAll.beauty.width d.mergeAll.beauty.height = true ∧
      d.verifyChecked 0 = some (d.verify 0) ∧ (∀ i check, d.Holds i check) ∧ (∀ r ∈ (d.verify 0).checks, d.Lists r) ∧
      (redAndBlue (onePixel ⟨.one, .zero, .zero⟩ .zero)).offenders .minusOne = [1] := by
  intro d
  have hformed : ∀ m ∈ d.machines, m.merged.Formed := by
    simp only [d, redAndBlue, onePixel, List.forall_mem_cons]
    exact ⟨⟨⟨rfl, by decide, by decide⟩, ⟨rfl, by decide, by decide⟩⟩,
      ⟨⟨rfl, by decide, by decide⟩, ⟨rfl, by decide, by decide⟩⟩, nofun⟩
  obtain ⟨hruns, hpassed, -, hlists⟩ := verify_passed_iff d 0 (by decide) hformed (by decide)
  have hpasses : (d.verify 0).passed = true := by decide +kernel
  exact ⟨by decide, hformed, by decide, hruns, hpassed.mp hpasses, hlists, by decide +kernel⟩

end FrameDumps

end ProgressiveFrame
