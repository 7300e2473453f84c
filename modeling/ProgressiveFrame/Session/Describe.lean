import ProgressiveFrame.Decimal.Fixed
import ProgressiveFrame.Session.Controller

/-!
# Status lines

Two lines that tell how a session stands: the frame and its progress, the picture and its sender.
-/

namespace ProgressiveFrame

/-- The word for a status. -/
def FrameStatus.word : FrameStatus → String
  | .started => "Started"
  | .rendering => "Rendering"
  | .finished => "Finished"
  | .cancelled => "Cancelled"
  | .error => "Error"

/-- The word for a pass. -/
def CoarsePass.word : CoarsePass → String
  | .coarse => "Coarse"
  | .fine => "Fine"
  | .unknown => "Unknown"

/-- The corners of a viewport, field by field. -/
def Viewport.corners (v : Viewport) : String :=
  s!"Viewport \x7b min_x: {v.minX}, min_y: {v.minY}, max_x: {v.maxX}, max_y: {v.maxY} \x7d"

/-- A value that may be missing, in words. -/
def optionWord {α : Type} (word : α → String) : Option α → String
  | some a => "Some(" ++ word a ++ ")"
  | none => "None"

namespace Controller

variable {μ : Type}

/-- The line on the frame and its progress. -/
def progressLine (c : Controller μ) : String :=
  let s := c.session
  let sync := match s.syncId with
    | some n => toString n
    | none => "-"
  let percent := String.ofList ((s.progress * Scalar.ofNat 100).fixed 1)
  let status := optionWord FrameStatus.word s.status
  s!"sync:{sync} status:{status} progress:{percent}% pass:{s.coarsePass.word}"

/-- The line on the picture and its sender. -/
def pictureLine (c : Controller μ) : String :=
  let s := c.session
  let v := c.store.viewport
  let roi := optionWord Viewport.corners s.roi
  let latency := String.ofList (s.latency.fixed 3)
  s!"viewport:{v.width}x{v.height} roi:{roi} machine:{s.machineId} " ++
    s!"size:{s.messageSize}B latency:{latency}s activity:{c.activity}"

/-- The two lines. -/
def describe (c : Controller μ) : List String := [c.progressLine, c.pictureLine]

end Controller

end ProgressiveFrame
