import ProgressiveFrame.Document.Decode
import ProgressiveFrame.Document.Toml.Node
import ProgressiveFrame.Document.Toml.Scalar

/-!
# Reading TOML

The reader of TOML that the program runs with. A text is a sequence of lines, each a header that
opens a table or an entry of the open table. It is read as a whole: a text with any fault has no tree.

Arrays and inline tables nest less than `nestingLimit` deep, and a dotted key has fewer parts than
that.
-/

namespace ProgressiveFrame.Toml

/-- The depth that nested values stay below. -/
def nestingLimit : Nat := 80

/-! ## Blanks, comments, keys -/

/-- The text after blanks. -/
def skipSpace (cs : List Char) : List Char := cs.dropWhile isSpace

/-- The text after the comment that it begins with, if it begins with one. -/
def skipComment (cs : List Char) : List Char :=
  match cs with
  | '#' :: rest => rest.dropWhile isPlain
  | _ => cs

/-- The text after the rest of a line that holds no more than a comment. -/
def endLine (cs : List Char) : Option (List Char) :=
  match skipComment (skipSpace cs) with
  | [] => some []
  | cs => afterNewline? cs

/-- The text after blanks, line breaks and comments. -/
def skipLines : Nat → List Char → List Char
  | 0, cs => cs
  | fuel + 1, cs =>
    match cs with
    | '#' :: rest => skipLines fuel (rest.dropWhile isPlain)
    | c :: rest =>
      if isSpace c then skipLines fuel rest
      else match afterNewline? cs with
        | some rest => skipLines fuel rest
        | none => cs
    | [] => []

/-- Whether a character may stand in a key without quotes. -/
def isKeyChar (c : Char) : Bool := c.isAlphanum || c = '-' || c = '_'

/-- The part of a key that a text begins with, and the text after it. -/
def scanKeyPart (cs : List Char) : Option (String × List Char) :=
  match cs with
  | '"' :: rest => (scanBasic 0 [] rest).map fun (s, rest) => (String.ofList s, rest)
  | '\'' :: rest => (scanLiteral [] rest).map fun (s, rest) => (String.ofList s, rest)
  | _ =>
    let word := cs.takeWhile isKeyChar
    if word.isEmpty then none else some (String.ofList word, cs.drop word.length)

/-- The parts of a dotted key from the first one on, and the text after them. -/
def scanKeyParts : Nat → List Char → Option (List String × List Char)
  | 0, _ => none
  | fuel + 1, cs => do
    let (part, cs) ← scanKeyPart (skipSpace cs)
    match skipSpace cs with
    | '.' :: cs =>
      let (parts, cs) ← scanKeyParts fuel cs
      return (part :: parts, cs)
    | cs => return ([part], cs)

/-- A dotted key: the path before its last part, the last part, and the text after them. -/
def scanKey (cs : List Char) : Option (List String × String × List Char) := do
  let (parts, cs) ← scanKeyParts cs.length cs
  if nestingLimit ≤ parts.length then none
  else return (parts.dropLast, ← parts.getLast?, cs)

/-! ## Values -/

mutual

/-- The tree of the value that a text begins with, below `depth` others, and the text after it. -/
def scanValue : Nat → Nat → List Char → Option (Tree × List Char)
  | 0, _, _ => none
  | fuel + 1, depth, cs =>
    match cs with
    | '[' :: rest =>
      if nestingLimit ≤ depth + 1 then none
      else do
        let (items, rest) ← scanItems fuel (depth + 1) (skipLines rest.length rest)
        return (.list items, rest)
    | '{' :: rest =>
      if nestingLimit ≤ depth + 1 then none
      else do
        let (entries, rest) ← match skipSpace rest with
          | '}' :: rest => some ([], rest)
          | rest => scanEntries fuel (depth + 1) [] rest
        return (.table (entriesTree entries), rest)
    | _ => scanScalar cs

/-- The items of an array from the first one on, or its end. -/
def scanItems : Nat → Nat → List Char → Option (List Tree × List Char)
  | 0, _, _ => none
  | fuel + 1, depth, cs =>
    match cs with
    | ']' :: rest => some ([], rest)
    | _ => do
      let (t, rest) ← scanValue fuel depth cs
      match skipLines rest.length rest with
      | ',' :: rest =>
        let (items, rest) ← scanItems fuel depth (skipLines rest.length rest)
        return (t :: items, rest)
      | ']' :: rest => return ([t], rest)
      | _ => none

/-- Adds the entries of an inline table from the first one on. -/
def scanEntries : Nat → Nat → Entries → List Char → Option (Entries × List Char)
  | 0, _, _, _ => none
  | fuel + 1, depth, entries, cs => do
    let (path, key, cs) ← scanKey cs
    let cs ← scanChar '=' cs
    let (t, cs) ← scanValue fuel depth (skipSpace cs)
    let entries ← addEntry path key (.value t) entries
    match skipSpace cs with
    | ',' :: cs => scanEntries fuel depth entries cs
    | '}' :: cs => return (entries, cs)
    | _ => none

end

/-! ## Lines -/

/-- Reads the header or the entry that a text begins with. -/
def readStatement (b : Building) (cs : List Char) : Option (Building × List Char) :=
  match cs with
  | '[' :: '[' :: rest => do
    let (path, key, rest) ← scanKey rest
    let rest ← scanChar ']' rest
    let rest ← scanChar ']' rest
    return (← b.openElement path key, ← endLine rest)
  | '[' :: rest => do
    let (path, key, rest) ← scanKey rest
    let rest ← scanChar ']' rest
    return (← b.openTable path key, ← endLine rest)
  | _ => do
    let (path, key, cs) ← scanKey cs
    let cs ← scanChar '=' cs
    let cs := skipSpace cs
    let (t, cs) ← scanValue (2 * cs.length + 2) 0 cs
    return (← b.add path key (.value t), ← endLine cs)

/-- Reads the lines of a text. -/
def readLines : Nat → Building → List Char → Option Building
  | 0, _, _ => none
  | fuel + 1, b, cs =>
    match skipLines cs.length cs with
    | [] => some b
    | cs => do
      let (b, cs) ← readStatement b cs
      readLines fuel b cs

/-- The tree of a text. A byte-order mark at its beginning is passed over. -/
def ofText? (s : String) : Option Tree := do
  let cs := match s.toList with
    | '\ufeff' :: rest => rest
    | cs => cs
  let b ← readLines (cs.length + 1) {} cs
  let b ← b.close
  return .table (entriesTree b.root)

/-- A list may be longer than its record, and an empty list or table may stand beside the name of a
choice. -/
def dialect : Dialect where
  surplusItems := true
  isChoicePayload
    | .list [] => true
    | .table [] => true
    | _ => false

/-- Reads a text. -/
def decode {α : Type} (decoder : Tree.Decoder α) (s : String) : Except DocumentFault α :=
  match ofText? s with
  | some t => decoder t
  | none => .error .malformed

end ProgressiveFrame.Toml
