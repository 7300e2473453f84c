import ProgressiveFrame.Binary32
import ProgressiveFrame.Document.Tree

/-!
# Reading trees as records

A record is written as a table, or as a list of its fields in their fixed order. Entries that are
not fields of the record are passed over; a field that is given twice is refused. Fields are read
in the order in which they stand, so the first fault is the one that is reported. A field may hand
its value on, which ends the reading there.
-/

namespace ProgressiveFrame

/-- Why a tree is not read to its end. -/
inductive DocumentFault where
  /-- The text or its shape is wrong. -/
  | malformed
  /-- A value is met that is handed on. -/
  | handedOn (t : Tree)

/-- What two formats decide differently. -/
structure Dialect where
  /-- Whether a list may be longer than the record it writes. -/
  surplusItems : Bool
  /-- Whether a value may stand beside the name of a choice. -/
  isChoicePayload : Tree → Bool

namespace Tree

/-- A reader of trees. -/
abbrev Decoder (α : Type) := Tree → Except DocumentFault α

/-- A whole number from `low` on and below `high`. -/
def asInt (low high : Int) : Decoder Int
  | .int n => if low ≤ n ∧ n < high then .ok n else .error .malformed
  | _ => .error .malformed

/-- A natural number of so many bits. -/
def asWord (bits : Nat) : Decoder Nat := fun t => do return (← asInt 0 (1 <<< bits : Nat) t).toNat

/-- A truth value. -/
def asBool : Decoder Bool
  | .bool b => .ok b
  | _ => .error .malformed

/-- A text. -/
def asText : Decoder String
  | .text s => .ok s
  | _ => .error .malformed

/-- A single precision number, the nearest one to what is written. -/
def asBinary32 : Decoder Binary32
  | .int n =>
    let magnitude := Binary32.ofNat n.natAbs
    .ok (if n < 0 then ⟨magnitude.bits ||| 0x80000000⟩ else magnitude)
  | .float x => .ok (.ofFloat32 x.toFloat32)
  | _ => .error .malformed

/-- A value that may be given as `null`. -/
def asOption {α : Type} (decode : Decoder α) : Decoder (Option α)
  | .null => .ok none
  | t => some <$> decode t

/-- One of several named values, written as its name or as a table with that name alone. -/
def asChoice {α : Type} (d : Dialect) (names : List (String × α)) : Decoder α := fun t =>
  let named (name : String) := match names.lookup name with
    | some v => .ok v
    | none => .error .malformed
  match t with
  | .text name => named name
  | .table [(some name, payload)] => if d.isChoicePayload payload then named name else .error .malformed
  | _ => .error .malformed

/-- Reads the entries of a table into a partial record. -/
def readEntries {σ : Type} (fields : List String) (read : σ → String → Tree → Except DocumentFault σ) :
    List String → σ → List (Option String × Tree) → Except DocumentFault σ
  | _, acc, [] => .ok acc
  | _, _, (none, _) :: _ => .error .malformed
  | seen, acc, (some name, t) :: rest =>
    if !fields.contains name then readEntries fields read seen acc rest
    else if seen.contains name then .error .malformed
    else match read acc name t with
      | .error e => .error e
      | .ok acc => readEntries fields read (name :: seen) acc rest

/-- Reads the items of a list as the fields of a partial record. -/
def readItems {σ : Type} (d : Dialect) (read : σ → String → Tree → Except DocumentFault σ) :
    List String → σ → List Tree → Except DocumentFault σ
  | _, acc, [] => .ok acc
  | [], acc, _ :: _ => if d.surplusItems then .ok acc else .error .malformed
  | name :: names, acc, t :: rest =>
    match read acc name t with
    | .error e => .error e
    | .ok acc => readItems d read names acc rest

/-- Reads the fields that a tree gives of a record. A moment counts as a table without them. -/
def asRecord {σ : Type} (d : Dialect) (fields : List String) (init : σ)
    (read : σ → String → Tree → Except DocumentFault σ) : Decoder σ
  | .table entries => readEntries fields read [] init entries
  | .list items => readItems d read fields init items
  | .moment => .ok init
  | _ => .error .malformed

end Tree

/-- The value of a field that has to be given. -/
def required {α : Type} : Option α → Except DocumentFault α
  | some v => .ok v
  | none => .error .malformed

end ProgressiveFrame
