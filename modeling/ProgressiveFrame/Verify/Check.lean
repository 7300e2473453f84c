import ProgressiveFrame.Verify.Frame

/-!
# Checking the dumps of a frame

Four checks tie the dumps of a frame together. Each lists what it found wrong, in the order of the
machines, and passes when it found nothing.

* Every machine received the image of all machines.
* The merger's image of a machine is what the machine decoded.
* The machines' contributions combine to what each received.
* The contributions of all others combine to what a machine has without its own.
-/

namespace ProgressiveFrame

/-- The checks in the order in which they are made. -/
inductive Check where
  | mergeAllVsFeedback
  | mergeVsDecoded
  | mergedReconstructsFeedback
  | minusOne
deriving DecidableEq

/-- The name of a check. -/
def Check.name : Check → String
  | .mergeAllVsFeedback => "merge-all-vs-feedback"
  | .mergeVsDecoded => "merge-vs-decoded"
  | .mergedReconstructsFeedback => "merged-reconstructs-feedback"
  | .minusOne => "minus-one"

/-- What a check found wrong. -/
inductive CheckFailure where
  | feedbackDiffers (machine : Nat)
  | decodedDiffers (machine : Nat)
  | noMergeDump (machine : Nat)
  /-- The contributions are not of the size of the image of all machines. -/
  | combiningFailed (cause : FrameError)
  | recombinedDiffers (machine : Nat)
  | minusOneDiffers (machine : Nat)
  | minusOneFailed (machine : Nat) (cause : FrameError)
deriving DecidableEq

/-- The sentence for a failure. -/
def CheckFailure.message : CheckFailure → String
  | .feedbackDiffers m => s!"machine {m} feedback differs from merge-all"
  | .decodedDiffers m => s!"machine {m} decoded image differs from merger input"
  | .noMergeDump m => s!"no merge dump for machine {m}"
  | .combiningFailed cause => "combining merged images failed: " ++ cause.message
  | .recombinedDiffers m => s!"machine {m} feedback differs from recombined merge"
  | .minusOneDiffers m => s!"machine {m} minus-one differs from merge of the others"
  | .minusOneFailed m cause => s!"machine {m} minus-one merge failed: " ++ cause.message

/-- What came of a check. -/
structure CheckResult where
  check : Check
  failures : List CheckFailure
deriving DecidableEq

/-- Whether nothing was found wrong. -/
def CheckResult.passed (r : CheckResult) : Bool := r.failures.isEmpty

/-- What came of all checks. -/
structure VerifyReport where
  frame : Nat
  machines : Nat
  checks : List CheckResult
deriving DecidableEq

/-- Whether every check passed. -/
def VerifyReport.passed (r : VerifyReport) : Bool := r.checks.all (·.passed)

theorem CheckResult.passed_iff {r : CheckResult} : r.passed = true ↔ r.failures = [] := by simp [passed]

theorem VerifyReport.passed_iff {r : VerifyReport} : r.passed = true ↔ ∀ c ∈ r.checks, c.failures = [] := by
  simp [passed, CheckResult.passed_iff]

namespace FrameDumps

/-- Images accumulated one after another, from the black image of no rays on. -/
def combine (width height : Nat) (parts : List SampledImage) : Except FrameError SampledImage :=
  parts.foldlM SampledImage.merge (.zero width height)

/-- The contributions of some machines, combined at the size of the image of all machines. -/
def combineMerged (d : FrameDumps) (machines : List MachineDumps) : Except FrameError SampledImage :=
  combine d.mergeAll.beauty.width d.mergeAll.beauty.height (machines.map (·.merged))

/-- What is wrong with the image that a machine received. -/
def feedbackFailure? (d : FrameDumps) (m : MachineDumps) : Option CheckFailure :=
  if m.feedback.isSame d.mergeAll then none else some (.feedbackDiffers m.machine)

/-- What is wrong with the merger's image of a machine. -/
def mergeFailure? (d : FrameDumps) (m : MachineDumps) : Option CheckFailure :=
  match d.merge[m.machine]? with
  | some image => if image.isSame m.decoded then none else some (.decodedDiffers m.machine)
  | none => some (.noMergeDump m.machine)

/-- What is wrong with the combination of all contributions. -/
def recombinedFailures (d : FrameDumps) : List CheckFailure :=
  match d.combineMerged d.machines with
  | .error cause => [.combiningFailed cause]
  | .ok combined =>
    d.machines.filterMap fun m =>
      if m.feedback.isSame combined then none else some (.recombinedDiffers m.machine)

/-- What is wrong with the combination of all contributions but that of one machine. -/
def minusOneFailure? (d : FrameDumps) (m : MachineDumps) : Option CheckFailure :=
  match d.combineMerged (d.machines.filter (·.machine != m.machine)) with
  | .error cause => some (.minusOneFailed m.machine cause)
  | .ok expected => if expected.isSame m.minusOne then none else some (.minusOneDiffers m.machine)

/-- Makes all checks. -/
def verify (d : FrameDumps) (frame : Nat) : VerifyReport where
  frame := frame
  machines := d.machines.length
  checks := [
    ⟨.mergeAllVsFeedback, d.machines.filterMap d.feedbackFailure?⟩,
    ⟨.mergeVsDecoded, d.machines.filterMap d.mergeFailure?⟩,
    ⟨.mergedReconstructsFeedback, d.recombinedFailures⟩,
    ⟨.minusOne, d.machines.filterMap d.minusOneFailure?⟩]

end FrameDumps

end ProgressiveFrame
