import ProgressiveFrame.Document.Json
import ProgressiveFrame.Session.Message

/-!
# Headers in JSON

The record that a header is written as. The region of interest and the two inputs of the denoiser
may be left out.
-/

namespace ProgressiveFrame

/-- The names of the states of a frame. -/
def FrameStatus.names : List (String × FrameStatus) :=
  [("started", .started), ("rendering", .rendering), ("finished", .finished), ("cancelled", .cancelled),
    ("error", .error)]

/-- The names of the passes. -/
def CoarsePass.names : List (String × CoarsePass) :=
  [("coarse", .coarse), ("fine", .fine), ("unknown", .unknown)]

namespace Viewport

/-- The names of the fields, in order. -/
def fields : List String := ["min_x", "min_y", "max_x", "max_y"]

/-- Reads a viewport of 32-bit coordinates. -/
def decode (d : Dialect) : Tree.Decoder Viewport := fun t => do
  let corners ← t.asRecord d fields (none, none, none, none) fun (a, b, c, e) name t => do
    let v ← t.asInt (-0x80000000) 0x80000000
    return match name with
      | "min_x" => (some v, b, c, e)
      | "min_y" => (a, some v, c, e)
      | "max_x" => (a, b, some v, e)
      | _ => (a, b, c, some v)
  match corners with
  | (some a, some b, some c, some e) => return ⟨a, b, c, e⟩
  | _ => throw .malformed

end Viewport

namespace FrameHeader

/-- The names of the fields, in order. -/
def fields : List String :=
  ["sync_id", "view_id", "status", "progress", "coarse_pass", "viewport", "roi", "snapshot_timestamp_micros",
    "sender_machine_id", "denoise_albedo_input", "denoise_normal_input"]

/-- The fields that have been read. -/
structure Partial where
  syncId : Option Nat := none
  viewId : Option Nat := none
  status : Option FrameStatus := none
  progress : Option Binary32 := none
  coarsePass : Option CoarsePass := none
  viewport : Option Viewport := none
  roi : Option Viewport := none
  snapshotMicros : Option Nat := none
  machineId : Option Int := none
  albedoInput : String := ""
  normalInput : String := ""

/-- Reads one field. -/
def Partial.read (d : Dialect) (p : Partial) (name : String) (t : Tree) : Except DocumentFault Partial := do
  match name with
  | "sync_id" => return { p with syncId := some (← t.asWord 32) }
  | "view_id" => return { p with viewId := some (← t.asWord 32) }
  | "status" => return { p with status := some (← t.asChoice d FrameStatus.names) }
  | "progress" => return { p with progress := some (← t.asBinary32) }
  | "coarse_pass" => return { p with coarsePass := some (← t.asChoice d CoarsePass.names) }
  | "viewport" => return { p with viewport := some (← Viewport.decode d t) }
  | "roi" => return { p with roi := ← t.asOption (Viewport.decode d) }
  | "snapshot_timestamp_micros" => return { p with snapshotMicros := some (← t.asWord 64) }
  | "sender_machine_id" => return { p with machineId := some (← t.asInt (-0x80000000) 0x80000000) }
  | "denoise_albedo_input" => return { p with albedoInput := ← t.asText }
  | _ => return { p with normalInput := ← t.asText }

/-- The header, if every field that has to be given is there. -/
def Partial.complete (p : Partial) : Except DocumentFault FrameHeader := do
  return {
    syncId := ← required p.syncId
    viewId := ← required p.viewId
    status := ← required p.status
    progress := ← required p.progress
    coarsePass := ← required p.coarsePass
    viewport := ← required p.viewport
    roi := p.roi
    snapshotMicros := ← required p.snapshotMicros
    machineId := ← required p.machineId
    albedoInput := p.albedoInput
    normalInput := p.normalInput }

/-- Reads a header. -/
def decode (d : Dialect) : Tree.Decoder FrameHeader := fun t => do
  (← t.asRecord d fields {} (Partial.read d)).complete

/-- The header that a JSON text writes. -/
def ofJson? (s : String) : Option FrameHeader := (Json.decode (decode Json.dialect) s).toOption

end FrameHeader

end ProgressiveFrame
