import ProgressiveFrame.Decimal.Scaled
import ProgressiveFrame.Document.Decode
import ProgressiveFrame.Text.Numeral

/-!
# Reading JSON

A text is read into a tree from left to right. Where it breaks the grammar, the value read so far is
kept with a mark at its end, so that a reader of the tree meets the fault at the place where it
stands. What only matters for a value that is used, an unpaired surrogate or a number out of range,
is marked in the tree and not a fault of the grammar.

* An integer that fits a 64-bit word is exact; `-0` and longer integers are floats.
* Digits of a float beyond those of a 64-bit word are dropped (`Mantissa`).
-/

namespace ProgressiveFrame.Json

/-- Whether a character separates tokens. -/
def isSpace (c : Char) : Bool := c = ' ' || c = '\n' || c = '\t' || c = '\r'

/-- The text from the next token on. -/
def skipSpace (cs : List Char) : List Char := cs.dropWhile isSpace

/-! ## Strings -/

/-- The character that a letter after a backslash stands for. -/
def simpleEscape? : Char → Option Nat
  | '"' => some 0x22
  | '\\' => some 0x5c
  | '/' => some 0x2f
  | 'b' => some 0x08
  | 'f' => some 0x0c
  | 'n' => some 0x0a
  | 'r' => some 0x0d
  | 't' => some 0x09
  | _ => none

/-- The code units of a string up to its closing quote, and the text after it. -/
def scanString : List Nat → List Char → Option (List Nat × List Char)
  | _, [] => none
  | units, '"' :: rest => some (units.reverse, rest)
  | units, '\\' :: 'u' :: a :: b :: c :: d :: rest =>
    match Text.readDigits? 16 0 [a, b, c, d] with
    | some n => scanString (n :: units) rest
    | none => none
  | units, '\\' :: c :: rest =>
    match simpleEscape? c with
    | some n => scanString (n :: units) rest
    | none => none
  | units, c :: rest => if c.toNat < 0x20 || c = '\\' then none else scanString (c.toNat :: units) rest

/-- Whether a code unit is the first of a surrogate pair. -/
def isHighSurrogate (n : Nat) : Bool := 0xd800 ≤ n && n < 0xdc00

/-- Whether a code unit is the second of a surrogate pair. -/
def isLowSurrogate (n : Nat) : Bool := 0xdc00 ≤ n && n < 0xe000

/-- The characters of code units, none when a surrogate is without its partner. -/
def pairUnits : List Nat → Option (List Char)
  | [] => some []
  | [n] => if isHighSurrogate n || isLowSurrogate n then none else some [Char.ofNat n]
  | n :: m :: rest =>
    if isHighSurrogate n then
      if isLowSurrogate m then
        (pairUnits rest).map (Char.ofNat (0x10000 + (n - 0xd800) * 0x400 + (m - 0xdc00)) :: ·)
      else none
    else if isLowSurrogate n then none
    else (pairUnits (m :: rest)).map (Char.ofNat n :: ·)

/-- The text of a string, where it has one. -/
def unitsText? (units : List Nat) : Option String := (pairUnits units).map String.ofList

/-! ## Numbers -/

/-- The digits of a number that are kept, with the power of ten that they are to be multiplied by. -/
structure Mantissa where
  value : Nat := 0
  exponent : Int := 0

namespace Mantissa

/-- The greatest value that is kept. -/
def limit : Nat := 0x10000000000000000

/-- The value with one digit more, if it can be kept. -/
def append? (m : Mantissa) (digit : Nat) : Option Nat :=
  let value := m.value * 10 + digit
  if value < limit then some value else none

/-- Reads the digits before the point. From the first one that cannot be kept on, each digit counts as
one power of ten. -/
def readWhole : Mantissa → List Nat → Mantissa
  | m, [] => m
  | m, d :: ds =>
    match m.append? d with
    | some value => readWhole { m with value } ds
    | none => { m with exponent := m.exponent + (ds.length + 1) }

/-- Reads the digits after the point, up to the first one that cannot be kept. -/
def readFraction : Mantissa → List Nat → Mantissa
  | m, [] => m
  | m, d :: ds =>
    match m.append? d with
    | some value => readFraction ⟨value, m.exponent - 1⟩ ds
    | none => m

end Mantissa

/-- The values of the decimal digits at the beginning of a text, and the text after them. -/
def scanDigits (cs : List Char) : List Nat × List Char :=
  ((cs.takeWhile Char.isDigit).map fun c => c.toNat - '0'.toNat, cs.dropWhile Char.isDigit)

/-- The digits of a whole part, which has no superfluous zero, and the text after them. -/
def scanWhole (cs : List Char) : Option (List Nat × List Char) :=
  match scanDigits cs with
  | ([], _) => none
  | (0 :: _ :: _, _) => none
  | r => some r

/-- The digits of a fraction, if there is one. -/
def scanFraction : List Char → Option (List Nat × List Char)
  | '.' :: cs =>
    match scanDigits cs with
    | ([], _) => none
    | r => some r
  | cs => some ([], cs)

/-- The sign and the digits of an exponent, if there is one. -/
def scanExponent (cs : List Char) : Option (Option (Bool × List Nat) × List Char) :=
  let signed (cs : List Char) := match cs with
    | '+' :: rest => (false, scanDigits rest)
    | '-' :: rest => (true, scanDigits rest)
    | _ => (false, scanDigits cs)
  match cs with
  | c :: rest =>
    if c = 'e' || c = 'E' then
      match signed rest with
      | (_, [], _) => none
      | (negative, digits, rest) => some (some (negative, digits), rest)
    else some (none, cs)
  | [] => some (none, cs)

/-- The number of a list of digits. -/
def digitsValue (ds : List Nat) : Nat := ds.foldl (fun n d => n * 10 + d) 0

/-- The least exponent that is out of range whatever the digits before it. -/
def exponentLimit : Nat := 0x80000000

/-- The float of kept digits with a written exponent. -/
def floatOf? (m : Mantissa) (exponent : Option (Bool × List Nat)) : Option Float :=
  match exponent with
  | none => scaled? m.value m.exponent
  | some (negative, digits) =>
    let e := digitsValue digits
    if exponentLimit ≤ e then
      if m.value ≠ 0 && !negative then none else some 0
    else scaled? m.value (if negative then m.exponent - e else m.exponent + e)

/-- The tree of a float. -/
def floatTree (negative : Bool) (f : Option Float) : Tree :=
  match f with
  | some f => .float (if negative then -f else f)
  | none => .unusable

/-- The tree of an integer, which is exact when it fits a 64-bit word. -/
def intTree (negative : Bool) (m : Mantissa) : Tree :=
  if m.exponent ≠ 0 then floatTree negative (scaled? m.value m.exponent)
  else if !negative then .int m.value
  else if 1 ≤ m.value && m.value ≤ 0x8000000000000000 then .int (-(m.value : Int))
  else floatTree true (scaled? m.value 0)

/-- The tree of the number at the beginning of a text, and the text after it. -/
def scanNumber (cs : List Char) : Option (Tree × List Char) := do
  let (negative, cs) := match cs with
    | '-' :: rest => (true, rest)
    | _ => (false, cs)
  let (whole, cs) ← scanWhole cs
  let (fraction, cs) ← scanFraction cs
  let (exponent, cs) ← scanExponent cs
  let m := Mantissa.readWhole {} whole
  let tree := if fraction.isEmpty && exponent.isNone then intTree negative m
    else floatTree negative (floatOf? (m.readFraction fraction) exponent)
  return (tree, cs)

/-! ## Values -/

/-- The text after a word. -/
def afterWord? (word : List Char) (cs : List Char) : Option (List Char) :=
  if word.isPrefixOf cs then some (cs.drop word.length) else none

/-- The tree of the scalar at the beginning of a text, and the text after it. -/
def scanScalar (cs : List Char) : Option (Tree × List Char) :=
  match cs with
  | '"' :: rest => (scanString [] rest).map fun (units, rest) =>
      (match unitsText? units with
        | some s => .text s
        | none => .unusable, rest)
  | 'n' :: _ => (afterWord? "null".toList cs).map (.null, ·)
  | 't' :: _ => (afterWord? "true".toList cs).map (.bool true, ·)
  | 'f' :: _ => (afterWord? "false".toList cs).map (.bool false, ·)
  | _ => scanNumber cs

mutual

/-- The tree of the value at the beginning of a text, and the text after it unless it breaks off. -/
def scanValue : Nat → List Char → Tree × Option (List Char)
  | 0, _ => (.unusable, none)
  | fuel + 1, cs =>
    match skipSpace cs with
    | '[' :: rest =>
      let (items, after) := match skipSpace rest with
        | ']' :: rest => ([], some rest)
        | rest => scanItems fuel rest
      (.list items, after)
    | '{' :: rest =>
      let (entries, after) := match skipSpace rest with
        | '}' :: rest => ([], some rest)
        | rest => scanEntries fuel rest
      (.table entries, after)
    | cs =>
      match scanScalar cs with
      | some (t, rest) => (t, some rest)
      | none => (.unusable, none)

/-- The items of a list from the first one on. -/
def scanItems : Nat → List Char → List Tree × Option (List Char)
  | 0, _ => ([.unusable], none)
  | fuel + 1, cs =>
    match scanValue fuel cs with
    | (t, none) => ([t, .unusable], none)
    | (t, some rest) =>
      match skipSpace rest with
      | ',' :: rest =>
        let (items, after) := scanItems fuel rest
        (t :: items, after)
      | ']' :: rest => ([t], some rest)
      | _ => ([t, .unusable], none)

/-- The entries of a table from the first one on. -/
def scanEntries : Nat → List Char → List (Option String × Tree) × Option (List Char)
  | 0, _ => ([(none, .unusable)], none)
  | fuel + 1, cs =>
    match skipSpace cs with
    | '"' :: rest =>
      match scanString [] rest with
      | none => ([(none, .unusable)], none)
      | some (units, rest) =>
        match skipSpace rest with
        | ':' :: rest =>
          match scanValue fuel rest with
          | (t, none) => ([(unitsText? units, t), (none, .unusable)], none)
          | (t, some rest) =>
            match skipSpace rest with
            | ',' :: rest =>
              let (entries, after) := scanEntries fuel rest
              ((unitsText? units, t) :: entries, after)
            | '}' :: rest => ([(unitsText? units, t)], some rest)
            | _ => ([(unitsText? units, t), (none, .unusable)], none)
        | _ => ([(none, .unusable)], none)
    | _ => ([(none, .unusable)], none)

end

/-- The tree of a text, and whether the text ends with it. -/
def scanText (s : String) : Tree × Bool :=
  let cs := s.toList
  match scanValue (2 * cs.length + 2) cs with
  | (t, some rest) => (t, (skipSpace rest).isEmpty)
  | (t, none) => (t, false)

/-- A record is as long as its list, and nothing stands beside the name of a choice. -/
def dialect : Dialect where
  surplusItems := false
  isChoicePayload
    | .null => true
    | _ => false

/-- Reads a text that holds one value. -/
def decode {α : Type} (decoder : Tree.Decoder α) (s : String) : Except DocumentFault α := do
  let (t, whole) := scanText s
  let v ← decoder t
  if whole then return v else throw .malformed

end ProgressiveFrame.Json
