/-!
# Natural numbers in text

Written in a radix with digits up to `f`. A number that is read may start with one plus sign and
must be below a limit; leading zeros are accepted.
-/

namespace ProgressiveFrame.Text

/-- The value of a digit of either case. -/
def digit? (radix : Nat) (c : Char) : Option Nat :=
  let value? :=
    if '0' ≤ c ∧ c ≤ '9' then some (c.toNat - '0'.toNat)
    else if 'a' ≤ c ∧ c ≤ 'z' then some (c.toNat - 'a'.toNat + 10)
    else if 'A' ≤ c ∧ c ≤ 'Z' then some (c.toNat - 'A'.toNat + 10)
    else none
  value?.filter (· < radix)

/-- The number that a list of digits continues. -/
def readDigits? (radix : Nat) : Nat → List Char → Option Nat
  | acc, [] => some acc
  | acc, c :: cs =>
    match digit? radix c with
    | some d => readDigits? radix (acc * radix + d) cs
    | none => none

/-- The number that a text writes, if it writes one below `limit`. -/
def readNatural? (radix limit : Nat) (cs : List Char) : Option Nat :=
  let digits := match cs with
    | '+' :: rest => rest
    | _ => cs
  if digits.isEmpty then none else (readDigits? radix 0 digits).filter (· < limit)

/-- The decimal digits of a number. -/
def decimal (n : Nat) : List Char := Nat.toDigits 10 n

/-- The two hexadecimal digits of a byte, in lower case. -/
def hexByte (b : UInt8) : List Char := [Nat.digitChar (b.toNat / 16), Nat.digitChar (b.toNat % 16)]

end ProgressiveFrame.Text
