/-!
# Documents

The common shape of structured texts: scalars, lists, and tables of named entries in the order in
which they are written. How a text is read into a tree is a matter of its format; how a tree is
read as a record is the same for all formats.

The modules on documents are the readers that the running program is built with. Nothing is proved
from them: where a result is about what has been read, the reader is a parameter (`ConfigLibraries`).
-/

namespace ProgressiveFrame

/-- A value of a structured text. -/
inductive Tree where
  | null
  | bool (b : Bool)
  | int (n : Int)
  | float (x : Float)
  | text (s : String)
  /-- A date or a time of day. -/
  | moment
  /-- A scalar that no field can hold, or the place where the text breaks off. -/
  | unusable
  | list (items : List Tree)
  /-- Named entries. An entry without a usable name marks the place where the text breaks off. -/
  | table (entries : List (Option String × Tree))

instance : Inhabited Tree := ⟨.null⟩

end ProgressiveFrame
