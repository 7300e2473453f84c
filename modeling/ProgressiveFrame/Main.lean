import ProgressiveFrame.Verify.Run

/-!
# The command line

Verifies the dumps of a feedback frame.
-/

namespace ProgressiveFrame

/-- What the program says about itself. -/
def usageText : String :=
  "Cross-check merged and per-machine feedback framebuffer dumps\n\n" ++
  "Usage: verify --dir <DIR> --machines <N> --frame <ID> [--format <FORMAT>] [--json]\n"

/-- The content of a file, none when there is none to be read. -/
def readFile (path : String) : IO (Option ByteArray) := do
  try
    return some (← IO.FS.readBinFile path)
  catch _ =>
    return none

end ProgressiveFrame

open ProgressiveFrame in
/-- Runs the command that the arguments ask for. -/
def main (args : List String) : IO UInt32 := do
  match VerifyRequest.ofArguments args with
  | .error usage =>
    if usage = .invalid then IO.eprint usageText else IO.print usageText
    return usage.exitCode.toUInt32
  | .ok request =>
    match ← (request.run readFile).run with
    | .ok output =>
      IO.print output.stdout
      return output.exitCode.toUInt32
    | .error e =>
      IO.eprintln ("Error: " ++ request.failureMessage e)
      return 1
