import ProgressiveFrame.Document.Tree
import ProgressiveFrame.Text.Numeral

/-!
# Scalars of TOML

Strings of four kinds, numbers in four radixes, floats, dates and times. Each reader takes the text
from the scalar on and gives the text after it.
-/

namespace ProgressiveFrame.Toml

/-- Whether a character separates tokens of a line. -/
def isSpace (c : Char) : Bool := c = ' ' || c = '\t'

/-- Whether a character may stand in a comment or a string: no control character but the tab. -/
def isPlain (c : Char) : Bool := c = '\t' || (' ' ≤ c && c ≠ '\x7f')

/-- The text after a line break, if it begins with one. -/
def afterNewline? : List Char → Option (List Char)
  | '\n' :: rest => some rest
  | '\r' :: '\n' :: rest => some rest
  | _ => none

/-! ## Strings -/

/-- The character that a letter after a backslash stands for. -/
def simpleEscape? : Char → Option Char
  | 'b' => some '\x08'
  | 't' => some '\t'
  | 'n' => some '\n'
  | 'f' => some '\x0c'
  | 'r' => some '\r'
  | '"' => some '"'
  | '\\' => some '\\'
  | _ => none

/-- The character with a hexadecimal code point, if there is one. -/
def codePoint? (digits : List Char) : Option Char := do
  let n ← Text.readDigits? 16 0 digits
  if n < 0xd800 || (0xe000 ≤ n && n < 0x110000) then some (Char.ofNat n) else none

/-- The character that the text after a backslash writes, and how many characters write it. -/
def escape? : List Char → Option (Char × Nat)
  | 'u' :: rest => if rest.length < 4 then none else (codePoint? (rest.take 4)).map (·, 5)
  | 'U' :: rest => if rest.length < 8 then none else (codePoint? (rest.take 8)).map (·, 9)
  | c :: _ => (simpleEscape? c).map (·, 1)
  | [] => none

/-- The rest of a string in double quotes on one line. The first argument counts the characters of an
escape that are to be passed over. -/
def scanBasic : Nat → List Char → List Char → Option (List Char × List Char)
  | _, _, [] => none
  | skip + 1, read, _ :: rest => scanBasic skip read rest
  | 0, read, '"' :: rest => some (read.reverse, rest)
  | 0, read, '\\' :: rest =>
    match escape? rest with
    | some (c, length) => scanBasic length (c :: read) rest
    | none => none
  | 0, read, c :: rest => if isPlain c then scanBasic 0 (c :: read) rest else none

/-- The rest of a string in single quotes on one line. -/
def scanLiteral : List Char → List Char → Option (List Char × List Char)
  | _, [] => none
  | read, '\'' :: rest => some (read.reverse, rest)
  | read, c :: rest => if isPlain c then scanLiteral (c :: read) rest else none

/-- How many characters a line break with the blanks and line breaks after it has, where blanks may
stand before it; none when there is no line break. -/
def lineJoin? (cs : List Char) : Option Nat :=
  let blanks := cs.takeWhile isSpace
  match afterNewline? (cs.drop blanks.length) with
  | none => none
  | some rest =>
    let kept := go rest.length rest
    some (cs.length - kept.length)
where
  /-- The text after blanks and line breaks. -/
  go : Nat → List Char → List Char
    | 0, cs => cs
    | fuel + 1, cs =>
      match cs with
      | c :: rest =>
        if isSpace c then go fuel rest
        else match afterNewline? cs with
          | some rest => go fuel rest
          | none => cs
      | [] => []

/-- The rest of a string over several lines. Up to two quotes may stand inside it, also right before
the three that close it. -/
def scanMultiline (quote : Char) (escapes : Bool) : Nat → List Char → List Char → Option (List Char × List Char)
  | 0, _, _ => none
  | fuel + 1, read, cs =>
    match cs with
    | [] => none
    | c :: rest =>
      if c = quote then
        let run := (cs.takeWhile (· = quote)).length
        if run < 3 then scanMultiline quote escapes fuel (List.replicate run quote ++ read) (cs.drop run)
        else if run < 6 then some ((List.replicate (run - 3) quote ++ read).reverse, cs.drop run)
        else none
      else if escapes && c = '\\' then
        match lineJoin? rest with
        | some length => scanMultiline quote escapes fuel read (rest.drop length)
        | none =>
          match escape? rest with
          | some (e, length) => scanMultiline quote escapes fuel (e :: read) (rest.drop length)
          | none => none
      else match afterNewline? cs with
        | some rest => scanMultiline quote escapes fuel ('\n' :: read) rest
        | none => if isPlain c then scanMultiline quote escapes fuel (c :: read) rest else none

/-- The string that a text begins with, and the text after it. -/
def scanString (cs : List Char) : Option (String × List Char) :=
  let multiline (quote : Char) (escapes : Bool) (rest : List Char) :=
    let rest := (afterNewline? rest).getD rest
    scanMultiline quote escapes (rest.length + 1) [] rest
  let read := match cs with
    | '"' :: '"' :: '"' :: rest => multiline '"' true rest
    | '"' :: rest => scanBasic 0 [] rest
    | '\'' :: '\'' :: '\'' :: rest => multiline '\'' false rest
    | '\'' :: rest => scanLiteral [] rest
    | _ => none
  read.map fun (text, rest) => (String.ofList text, rest)

/-! ## Dates and times -/

/-- The number of exactly `count` digits, and the text after them. -/
def scanFixed (count : Nat) (cs : List Char) : Option (Nat × List Char) :=
  let digits := cs.take count
  if digits.length = count then (Text.readDigits? 10 0 digits).map (·, cs.drop count) else none

/-- The text after a character. -/
def scanChar (c : Char) : List Char → Option (List Char)
  | d :: rest => if d = c then some rest else none
  | [] => none

/-- The number of days of a month. -/
def daysOfMonth (year month : Nat) : Nat :=
  let leap := year % 4 = 0 ∧ (year % 100 ≠ 0 ∨ year % 400 = 0)
  if month = 2 then (if leap then 29 else 28)
  else if month = 4 ∨ month = 6 ∨ month = 9 ∨ month = 11 then 30
  else 31

/-- The text after a date. -/
def afterDate? (cs : List Char) : Option (List Char) := do
  let (year, cs) ← scanFixed 4 cs
  let cs ← scanChar '-' cs
  let (month, cs) ← scanFixed 2 cs
  let cs ← scanChar '-' cs
  let (day, cs) ← scanFixed 2 cs
  if 1 ≤ month ∧ month ≤ 12 ∧ 1 ≤ day ∧ day ≤ daysOfMonth year month then some cs else none

/-- The text after hours and minutes. -/
def afterHours? (cs : List Char) : Option (List Char) := do
  let (hour, cs) ← scanFixed 2 cs
  let cs ← scanChar ':' cs
  let (minute, cs) ← scanFixed 2 cs
  if hour < 24 ∧ minute < 60 then some cs else none

/-- The text after a time of day. -/
def afterTime? (cs : List Char) : Option (List Char) := do
  let cs ← afterHours? cs
  let cs ← scanChar ':' cs
  let (second, cs) ← scanFixed 2 cs
  if 60 < second then none
  else match cs with
    | '.' :: rest => if (rest.head?.any Char.isDigit) then some (rest.dropWhile Char.isDigit) else none
    | _ => some cs

/-- The text after the offset from universal time, if there is one. -/
def afterOffset? : List Char → Option (List Char)
  | 'Z' :: rest | 'z' :: rest => some rest
  | '+' :: rest | '-' :: rest => afterHours? rest
  | cs => some cs

/-- The text after the time of a date, if there is one. -/
def afterDateTime? (cs : List Char) : Option (List Char) :=
  match cs with
  | c :: rest =>
    if c = 'T' || c = 't' || c = ' ' then
      match afterTime? rest with
      | some rest => afterOffset? rest
      | none => some cs
    else some cs
  | [] => some cs

/-- The text after the date or time that a text begins with. -/
def afterMoment? (cs : List Char) : Option (List Char) :=
  match afterDate? cs with
  | some rest => afterDateTime? rest
  | none => afterTime? cs

/-! ## Numbers -/

/-- Removes the underscores between digits; none when one stands elsewhere or there is no digit. -/
def plainDigits? (isDigit : Char → Bool) : List Char → Option (List Char)
  | [] => none
  | [c] => if isDigit c then some [c] else none
  | c :: '_' :: d :: rest =>
    if isDigit c then (plainDigits? isDigit (d :: rest)).map (c :: ·) else none
  | c :: rest => if isDigit c then (plainDigits? isDigit rest).map (c :: ·) else none

/-- Whether a character is a digit of a radix. -/
def isDigitOf (radix : Nat) (c : Char) : Bool := (Text.digit? radix c).isSome

/-- The sign in front of a number, and the number. -/
def splitSign : List Char → Bool × List Char
  | '-' :: rest => (true, rest)
  | '+' :: rest => (false, rest)
  | cs => (false, cs)

/-- The digits of a whole part, which has no superfluous zero. -/
def wholeDigits? (cs : List Char) : Option (List Char) :=
  match plainDigits? Char.isDigit cs with
  | some ('0' :: _ :: _) => none
  | r => r

/-- The tree of an integer that fits a signed 64-bit word. -/
def wordTree (n : Int) : Option Tree := if -0x8000000000000000 ≤ n ∧ n < 0x8000000000000000 then some (.int n) else none

/-- An integer in a radix, without a sign. -/
def radixInteger? (radix : Nat) (digits : List Char) : Option Tree := do
  wordTree (← Text.readDigits? radix 0 (← plainDigits? (isDigitOf radix) digits))

/-- The integer that a word writes. -/
def integer? (word : List Char) : Option Tree :=
  match word with
  | '0' :: 'x' :: digits => radixInteger? 16 digits
  | '0' :: 'o' :: digits => radixInteger? 8 digits
  | '0' :: 'b' :: digits => radixInteger? 2 digits
  | _ => do
    let (negative, digits) := splitSign word
    let n ← Text.readDigits? 10 0 (← wholeDigits? digits)
    wordTree (if negative then -(n : Int) else n)

/-- The nearest double to `m · 10 ^ e`. What lies far outside the range of doubles is not computed. -/
def nearestFloat (m : Nat) (e : Int) : Float :=
  let size := e + (Text.decimal m).length
  if m = 0 then 0
  else if 400 < size then 1 / 0
  else if size < -400 then 0
  else Float.ofScientific m (e < 0) e.natAbs

/-- From this exponent on no more digits of an exponent are read. -/
def exponentLimit : Nat := 0x10000

/-- The exponent that follows the letter `e`. -/
def exponent? (cs : List Char) : Option Int := do
  let (negative, digits) := splitSign cs
  let digits ← plainDigits? Char.isDigit digits
  let n := digits.foldl (fun n c => if n < exponentLimit then n * 10 + (c.toNat - '0'.toNat) else n) 0
  return if negative then -(n : Int) else n

/-- The float that a word writes. One that is too large is refused, unless it is negative. -/
def float? (word : List Char) : Option Tree := do
  let (negative, unsigned) := splitSign word
  let signed (f : Float) : Tree := .float (if negative then -f else f)
  if unsigned = "inf".toList then return signed (1 / 0)
  if unsigned = "nan".toList then return signed (0 / 0)
  let isE (c : Char) := c = 'e' || c = 'E'
  let mantissa := unsigned.takeWhile (!isE ·)
  let exponent ← match unsigned.dropWhile (!isE ·) with
    | _ :: cs => exponent? cs
    | [] => some 0
  let whole ← wholeDigits? (mantissa.takeWhile (· ≠ '.'))
  let fraction ← match mantissa.dropWhile (· ≠ '.') with
    | _ :: cs => plainDigits? Char.isDigit cs
    | [] => if mantissa.length = unsigned.length then none else some []
  let m ← Text.readDigits? 10 0 (whole ++ fraction)
  let f := nearestFloat m (exponent - fraction.length)
  if f.isInf && !negative then none else return signed f

/-- Whether a character can be part of a number. -/
def isNumberChar (c : Char) : Bool := c.isAlphanum || c = '+' || c = '-' || c = '.' || c = '_'

/-- The tree of the scalar that a text begins with, and the text after it. -/
def scanScalar (cs : List Char) : Option (Tree × List Char) :=
  match cs with
  | '"' :: _ | '\'' :: _ => (scanString cs).map fun (s, rest) => (.text s, rest)
  | _ =>
    match afterMoment? cs with
    | some rest => some (.moment, rest)
    | none =>
      let word := cs.takeWhile isNumberChar
      let tree? :=
        if word = "true".toList then some (.bool true)
        else if word = "false".toList then some (.bool false)
        else float? word <|> integer? word
      tree?.map (·, cs.drop word.length)

end ProgressiveFrame.Toml
