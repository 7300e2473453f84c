import ProgressiveFrame.Store.Basic

/-!
# Readouts of a store

A readout names its source, a well-known channel or an AOV, and a region of interest in
coordinates of the viewport. A readout that extrapolates fills the source channel first, and the
filled values stay in the store.
-/

namespace ProgressiveFrame

/-- What is to be read out. -/
inductive ReadoutSource where
  | channel (kind : WellKnown)
  | aovIndex (index : Nat)
  | aovName (name : String)
deriving DecidableEq

namespace FrameStore

/-- The channel that holds a source, with the values of each pixel that belong to it. -/
inductive Holder where
  | wellKnown (kind : WellKnown) (first last : Nat)
  | owned (index : Nat) (channel : Channel)

/-- The holder of an AOV. -/
def Holder.ofAov (index : Nat) : Aov → Holder
  | .owned c => .owned index c
  | .reference kind => let (known, first, last) := kind.source; .wellKnown known first last

/-- The holder of a source. -/
def holder (s : FrameStore) : ReadoutSource → Except FrameError Holder
  | .channel kind => .ok (.wellKnown kind 0 kind.numChan)
  | .aovIndex index =>
    match s.aovAt? index with
    | some aov => .ok (.ofAov index aov)
    | none => .error (.aovIndexOutOfRange index)
  | .aovName name =>
    match s.aovIndex? name with
    | some index =>
      match s.aovAt? index with
      | some aov => .ok (.ofAov index aov)
      | none => .error (.unknownAov name)
    | none => .error (.unknownAov name)

/-- Reads a source out. The region of interest bounds both the fill and the copy. -/
def readout (s : FrameStore) (source : ReadoutSource) (o : Orientation) (roi : Option Viewport)
    (extrapolate : Bool) : FrameStore × Except FrameError Readout :=
  let roi := roi.map (·.relativeTo s.viewport)
  match s.holder source with
  | .error e => (s, .error e)
  | .ok (.wellKnown kind first last) =>
    let c := if extrapolate then (s.channel kind).extrapolate roi else s.channel kind
    (s.setChannel kind c, .ok (c.untile o roi first last))
  | .ok (.owned index c) =>
    let c := if extrapolate then c.extrapolate roi else c
    (s.setAov index (.owned c), .ok (c.untile o roi 0 c.numChan))

end FrameStore

end ProgressiveFrame
