import ProgressiveFrame.Verify.Arguments
import ProgressiveFrame.Verify.Report

/-!
# Running a verification

The dumps that a request names are read and checked, and the report is printed. The exit code is 1
when a check failed.
-/

namespace ProgressiveFrame

/-- What a verification prints, and its exit code. -/
structure VerifyOutput where
  stdout : String
  exitCode : Nat
deriving DecidableEq

/-- The output for a report. -/
def VerifyReport.output (r : VerifyReport) (json : Bool) : VerifyOutput :=
  ⟨if json then r.json else r.text, if r.passed then 0 else 1⟩

/-- The sentence for dumps of a frame that cannot be read. -/
def VerifyRequest.failureMessage (q : VerifyRequest) (e : LoadError) : String :=
  s!"failed to load dumps for frame {q.frame}: " ++ e.message

/-- Makes the verification of a request. -/
def VerifyRequest.run {m : Type → Type} [Monad m] (q : VerifyRequest) (readFile : String → m (Option ByteArray)) :
    ExceptT LoadError m VerifyOutput := do
  let dumps ← FrameDumps.load readFile q.dir q.machines q.frame q.format
  return (dumps.verify q.frame).output q.json

end ProgressiveFrame
