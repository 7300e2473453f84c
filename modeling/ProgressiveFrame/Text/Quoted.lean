import ProgressiveFrame.Text.Numeral

/-!
# Quoted text

A text in double quotes, as JSON has it: quotes, backslashes and control characters are escaped.
-/

namespace ProgressiveFrame.Text

/-- The characters that stand for a character between quotes. -/
def escape (c : Char) : List Char :=
  match c with
  | '"' => ['\\', '"']
  | '\\' => ['\\', '\\']
  | '\n' => ['\\', 'n']
  | '\r' => ['\\', 'r']
  | '\t' => ['\\', 't']
  | '\x08' => ['\\', 'b']
  | '\x0c' => ['\\', 'f']
  | c => if c.toNat < 0x20 then ['\\', 'u', '0', '0'] ++ hexByte (UInt8.ofNat c.toNat) else [c]

/-- The text in double quotes. -/
def quoted (s : String) : String := String.ofList (['"'] ++ s.toList.flatMap escape ++ ['"'])

end ProgressiveFrame.Text
