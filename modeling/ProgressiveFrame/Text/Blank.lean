/-!
# Blanks and words

The white space of Unicode (property `White_Space`, 25 characters) and the words of a text, which
are the longest runs of other characters.
-/

namespace ProgressiveFrame.Text

/-- The ranges of the property `White_Space`, both ends included. -/
def blankRanges : List (Nat × Nat) :=
  [(0x09, 0x0d), (0x20, 0x20), (0x85, 0x85), (0xa0, 0xa0), (0x1680, 0x1680), (0x2000, 0x200a),
    (0x2028, 0x2029), (0x202f, 0x202f), (0x205f, 0x205f), (0x3000, 0x3000)]

/-- Whether a character is white space. -/
def isBlank (c : Char) : Bool := blankRanges.any fun range => range.1 ≤ c.toNat && c.toNat ≤ range.2

/-- A word put in front of a list of words, unless it is empty. -/
def consWord (word : List Char) (words : List (List Char)) : List (List Char) :=
  if word.isEmpty then words else word :: words

/-- A character put in front of a text that has been cut at its first blank into a word, which may be
empty, and the words after it. -/
def consChar (c : Char) (cut : List Char × List (List Char)) : List Char × List (List Char) :=
  if isBlank c then ([], consWord cut.1 cut.2) else (c :: cut.1, cut.2)

/-- The words of a text. -/
def words (cs : List Char) : List (List Char) :=
  let (first, rest) := cs.foldr consChar ([], [])
  consWord first rest

@[simp] theorem words_nil : words [] = [] := rfl

/-- The text without the white space at its ends. -/
def trim (cs : List Char) : List Char :=
  ((cs.dropWhile isBlank).reverse.dropWhile isBlank).reverse

example : (blankRanges.map fun range => range.2 - range.1 + 1).sum = 25 := by decide

end ProgressiveFrame.Text
