import ProgressiveFrame.Text.Blank
import ProgressiveFrame.Text.Numeral
import ProgressiveFrame.Time.Seconds

/-!
# Lengths of time in words

The reader of lengths of time that the program runs with, an instance of the parameter `parseDuration`
of `ConfigLibraries`. A length is written as a sum of terms such as `1h 30m` or `1.5s`, each a number
with a unit.

* Blanks may stand before a number, inside it, and between it and its unit; a term ends at a blank or
  where the next number begins.
* A decimal fraction has to be a whole count: of nanoseconds for the units from the microsecond to the
  minute, of seconds for longer ones. A nanosecond has no fraction, not even one of zero.
* Every count has to fit a 64-bit word. A bare `0` is a length of time.
-/

namespace ProgressiveFrame

/-- The units of lengths of time. -/
inductive TimeUnit where
  | nanosecond
  | microsecond
  | millisecond
  | second
  | minute
  | hour
  | day
  | week
  | month
  | year
deriving DecidableEq

namespace TimeUnit

/-- The spellings of the units. -/
def names : List (String × TimeUnit) :=
  [("nanos", .nanosecond), ("nsec", .nanosecond), ("ns", .nanosecond),
    ("usec", .microsecond), ("us", .microsecond), ("µs", .microsecond),
    ("millis", .millisecond), ("msec", .millisecond), ("ms", .millisecond),
    ("seconds", .second), ("second", .second), ("secs", .second), ("sec", .second), ("s", .second),
    ("minutes", .minute), ("minute", .minute), ("min", .minute), ("mins", .minute), ("m", .minute),
    ("hours", .hour), ("hour", .hour), ("hrs", .hour), ("hr", .hour), ("h", .hour),
    ("days", .day), ("day", .day), ("d", .day),
    ("weeks", .week), ("week", .week), ("wks", .week), ("wk", .week), ("w", .week),
    ("months", .month), ("month", .month), ("M", .month),
    ("years", .year), ("year", .year), ("yrs", .year), ("yr", .year), ("y", .year)]

/-- Whether the unit is counted in seconds, and how many seconds or nanoseconds it has. -/
def scale : TimeUnit → Bool × Nat
  | .nanosecond => (false, 1)
  | .microsecond => (false, 1000)
  | .millisecond => (false, 1000000)
  | .second => (true, 1)
  | .minute => (true, 60)
  | .hour => (true, 3600)
  | .day => (true, 86400)
  | .week => (true, 604800)
  | .month => (true, 2630016)
  | .year => (true, 31557600)

/-- Whether a fraction of the unit is counted in seconds, and how many seconds or nanoseconds the
whole unit has then; none for a unit that is not divided. -/
def fractionScale? : TimeUnit → Option (Bool × Nat)
  | .nanosecond => none
  | .second => some (false, 1000000000)
  | .minute => some (false, 60000000000)
  | u => some u.scale

end TimeUnit

/-- The fraction after a decimal point. -/
structure DecimalFraction where
  numerator : Nat
  denominator : Nat

/-- The number of values of a word. -/
def wordLimit : Nat := 0x10000000000000000

/-- The count of a word, none beyond it. -/
def word? (n : Nat) : Option Nat := if n < wordLimit then some n else none

/-- The count that the fraction of a unit of `scale` parts is, if it is a whole one. -/
def DecimalFraction.count? (f : DecimalFraction) (scale : Nat) : Option Nat :=
  (word? (f.numerator * scale)).bind fun parts =>
    if parts % f.denominator = 0 then some (parts / f.denominator) else none

namespace Duration

/-- Whether a character can be part of a unit. -/
def isUnitLetter (c : Char) : Bool := c.isAlpha || c = 'µ'

/-- The length with seconds and nanoseconds added. -/
def add (d : Duration) (seconds nanos : Nat) : Except DurationFault Duration :=
  let rest := d.restNanos + nanos
  let carry := if nanosPerSecond < rest then rest / nanosPerSecond else 0
  if wordLimit ≤ rest || secondsLimit ≤ d.wholeSeconds + (seconds + carry) then .error .refused
  else
    let total := (d.wholeSeconds + seconds) * nanosPerSecond + rest
    if secondsLimit * nanosPerSecond ≤ total then .error .overlong else .ok ⟨total⟩

/-- The length with a count of seconds or of nanoseconds added. -/
def addCount (d : Duration) (inSeconds : Bool) (count : Nat) : Except DurationFault Duration :=
  if inSeconds then d.add count 0 else d.add 0 count

/-- The length with one term added. -/
def addTerm (d : Duration) (n : Nat) (fraction : Option DecimalFraction) (u : TimeUnit) :
    Except DurationFault Duration := do
  let some count := word? (n * u.scale.2) | throw .refused
  let d ← d.addCount u.scale.1 count
  match fraction with
  | none => return d
  | some f =>
    let some (inSeconds, scale) := u.fractionScale? | throw .refused
    let some count := f.count? scale | throw .refused
    d.addCount inSeconds count

/-- The digits of a fraction up to its unit, and the text from there on. -/
def scanFraction : DecimalFraction → List Char → Option (DecimalFraction × List Char)
  | f, [] => some (f, [])
  | f, c :: cs =>
    if c.isDigit then
      let f : DecimalFraction := ⟨f.numerator * 10 + (c.toNat - '0'.toNat), f.denominator * 10⟩
      if f.denominator < wordLimit && f.numerator < wordLimit then scanFraction f cs else none
    else if Text.isBlank c then scanFraction f cs
    else if isUnitLetter c then some (f, c :: cs)
    else none

/-- A number with a fraction, up to its unit, and the text from there on. -/
def scanNumber : Nat → List Char → Option (Nat × Option DecimalFraction × List Char)
  | n, [] => some (n, none, [])
  | n, c :: cs =>
    if c.isDigit then (word? (n * 10 + (c.toNat - '0'.toNat))).bind fun n => scanNumber n cs
    else if Text.isBlank c then scanNumber n cs
    else if isUnitLetter c then some (n, none, c :: cs)
    else if c = '.' then
      match scanFraction ⟨0, 1⟩ cs with
      | some (f, rest) => if f.denominator = 1 then none else some (n, some f, rest)
      | none => none
    else none

/-- Adds the terms of a text, which begins with a digit or is at its end. -/
def addTerms : Nat → Duration → List Char → Except DurationFault Duration
  | _, d, [] => .ok d
  | 0, _, _ => .error .refused
  | fuel + 1, d, c :: cs => do
    if !c.isDigit then throw .refused
    let some (n, fraction, rest) := scanNumber 0 (c :: cs) | throw .refused
    let name := String.ofList (rest.takeWhile isUnitLetter)
    let rest := rest.dropWhile isUnitLetter
    if (rest.head?.filter fun c => !c.isDigit && !Text.isBlank c).isSome then throw .refused
    let some u := TimeUnit.names.lookup name | throw .refused
    let d ← d.addTerm n fraction u
    addTerms fuel d (rest.dropWhile Text.isBlank)

/-- The length that a text writes. -/
def ofText (s : String) : Except DurationFault Duration :=
  if s = "0" then .ok ⟨0⟩
  else match s.toList.dropWhile Text.isBlank with
    | [] => .error .refused
    | cs => addTerms cs.length ⟨0⟩ cs

end Duration

end ProgressiveFrame
