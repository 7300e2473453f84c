/-!
# Frame errors

What can be wrong with an update, a blend or a readout, and the sentence that says so.
-/

namespace ProgressiveFrame

/-- Results can be compared when errors and values can. -/
instance decidableEqExcept {ε α : Type} [DecidableEq ε] [DecidableEq α] : DecidableEq (Except ε α)
  | .ok a, .ok b => decidable_of_iff (a = b) (by simp)
  | .error e, .error f => decidable_of_iff (e = f) (by simp)
  | .ok _, .error _ => .isFalse nofun
  | .error _, .ok _ => .isFalse nofun

/-- A number that two sides of an operation have to agree on. -/
inductive Quantity where
  | channelCount
  | decodedValueCount
  | sampleCountLength
  | mergeBufferLength
  | mergeCountLength
  | readoutChannelCount
  | readoutValueCount
deriving DecidableEq

/-- The name of the number in messages. -/
def Quantity.text : Quantity → String
  | .channelCount => "channel count"
  | .decodedValueCount => "decoded value count"
  | .sampleCountLength => "sample count length"
  | .mergeBufferLength => "merge buffer length"
  | .mergeCountLength => "merge count length"
  | .readoutChannelCount => "readout channel count"
  | .readoutValueCount => "readout value count"

/-- Why an operation on frame data was refused. -/
inductive FrameError where
  /-- Two numbers that have to agree do not. -/
  | dimensionMismatch (what : Quantity) (expected actual : Nat)
  /-- Two images that have to be of one size are not. -/
  | layoutMismatch (expected actual : Nat × Nat)
  /-- No AOV has this name. -/
  | unknownAov (name : String)
  /-- The AOV borrows its pixels, so nothing can be merged into it. -/
  | referenceAov (name : String)
  /-- There are not that many AOVs. -/
  | aovIndexOutOfRange (index : Nat)
deriving DecidableEq

private def sizeText (size : Nat × Nat) : String := s!"({size.1}, {size.2})"

/-- The sentence for an error. -/
def FrameError.message : FrameError → String
  | .dimensionMismatch what expected actual => s!"{what.text} mismatch: expected {expected}, got {actual}"
  | .layoutMismatch expected actual =>
    s!"tile layout mismatch: expected {sizeText expected}, got {sizeText actual}"
  | .unknownAov name => "aov '" ++ name ++ "' not found"
  | .referenceAov name => "aov '" ++ name ++ "' is a reference and owns no storage"
  | .aovIndexOutOfRange index => s!"aov index {index} out of range"

end ProgressiveFrame
