import ProgressiveFrame.Text.Quoted
import ProgressiveFrame.Verify.Check

/-!
# Reports

A report as lines for a reader, or as a JSON record indented by two blanks for each level.
-/

namespace ProgressiveFrame

/-- Lines with a line break after each. -/
private def lines (ls : List String) : String := String.join (ls.map (· ++ "\n"))

/-- A text filled up with blanks to a width. -/
def padRight (width : Nat) (s : String) : String := s ++ String.ofList (List.replicate (width - s.length) ' ')

/-- The lines of a check. -/
def CheckResult.lines (r : CheckResult) : List String :=
  let status := if r.passed then "OK" else "FAILED"
  ("  " ++ padRight 30 r.check.name ++ " " ++ status) :: r.failures.map fun f => "    " ++ f.message

/-- The report as lines. -/
def VerifyReport.text (r : VerifyReport) : String :=
  lines (s!"Frame {r.frame} ({r.machines} machines):" :: r.checks.flatMap (·.lines))

/-- Items of a JSON list or record on lines of their own, between two brackets. -/
private def block (indent : Nat) (opening closing : String) (items : List String) : String :=
  if items.isEmpty then opening ++ closing
  else
    let blanks (n : Nat) := String.ofList (List.replicate (2 * n) ' ')
    let body := ",\n".intercalate (items.map (blanks (indent + 1) ++ ·))
    opening ++ "\n" ++ body ++ "\n" ++ blanks indent ++ closing

/-- A field of a JSON record. -/
private def field (name value : String) : String := Text.quoted name ++ ": " ++ value

/-- A truth value in JSON. -/
private def truth (b : Bool) : String := if b then "true" else "false"

/-- The JSON record of a check, in a list of the report. -/
def CheckResult.json (r : CheckResult) : String :=
  block 2 "\x7b" "\x7d" [
    field "name" (Text.quoted r.check.name),
    field "passed" (truth r.passed),
    field "failures" (block 3 "[" "]" (r.failures.map fun f => Text.quoted f.message))]

/-- The report as a JSON text. -/
def VerifyReport.json (r : VerifyReport) : String :=
  block 0 "\x7b" "\x7d" [
    field "frame" (toString r.frame),
    field "machines" (toString r.machines),
    field "checks" (block 1 "[" "]" (r.checks.map (·.json)))] ++ "\n"

end ProgressiveFrame
