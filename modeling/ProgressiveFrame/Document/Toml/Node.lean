import ProgressiveFrame.Document.Tree

/-!
# Building tables

The tables of a TOML text grow while it is read: a header or a dotted key names a path, and the
tables on the way come into being when they are first named. What may be named again depends on how
a table came into being.

* A table that a longer path has brought into being is *implicit*; it may be opened once by a header.
* A table that a dotted key has brought into being is *dotted*; it may grow by dotted keys alone.
-/

namespace ProgressiveFrame.Toml

/-- A value, or a table that may still grow. -/
inductive Node where
  | value (t : Tree)
  | table (isImplicit isDotted : Bool) (entries : List (String × Node))
  /-- Tables of one name, the latest one last. -/
  | tables (elements : List Node)

/-- Named nodes in order. -/
abbrev Entries := List (String × Node)

namespace Entries

/-- The node of a name. -/
def find? (es : Entries) (key : String) : Option Node := es.lookup key

/-- The entries with a node put in the place of the one of the same name, or at the end. -/
def put (es : Entries) (key : String) (n : Node) : Entries :=
  if es.any (·.1 == key) then es.map fun e => if e.1 == key then (key, n) else e else es ++ [(key, n)]

/-- The entries without those of a name. -/
def remove (es : Entries) (key : String) : Entries := es.filter (·.1 != key)

end Entries

/-- What is done at the end of a path to a table, given whether it is dotted. -/
abbrev Edit (α : Type) := Bool → Entries → Option (Entries × α)

/-- Goes down a path of table names, of a dotted key or of a header, and edits the table at its end.
Tables that are missing on the way come into being. -/
def descend {α : Type} (byKey : Bool) (edit : Edit α) : List String → Edit α
  | [], isDotted, es => edit isDotted es
  | key :: path, _, es =>
    match es.find? key with
    | none => (descend byKey edit path byKey []).map fun (sub, a) => (es.put key (.table true byKey sub), a)
    | some (.value _) => none
    | some (.table isImplicit isDotted sub) =>
      if byKey && !isImplicit then none
      else (descend byKey edit path isDotted sub).map fun (sub, a) =>
        (es.put key (.table isImplicit isDotted sub), a)
    | some (.tables elements) =>
      match elements.getLast? with
      | some (.table isImplicit isDotted sub) =>
        (descend byKey edit path isDotted sub).map fun (sub, a) =>
          (es.put key (.tables (elements.dropLast ++ [.table isImplicit isDotted sub])), a)
      | _ => none

/-- Adds an entry under a dotted key, whose last part is given apart. A name that is taken is refused,
and so is a table that did not come into being by dotted keys. -/
def addEntry (path : List String) (key : String) (n : Node) (es : Entries) : Option Entries :=
  let edit : Edit Unit := fun isDotted es =>
    if isDotted == path.isEmpty then none
    else if (es.find? key).isSome then none
    else some (es ++ [(key, n)], ())
  (descend true edit path false es).map (·.1)

/-- The table that a header has opened. -/
structure OpenTable where
  path : List String
  key : String
  /-- Whether the header adds one more table of its name. -/
  isElement : Bool

/-- A text that is being read: the tables that are closed, and the entries of the one that is open.
Before the first header no table is open, and the entries are those of the text itself. -/
structure Building where
  root : Entries := []
  opened : Option OpenTable := none
  entries : Entries := []

namespace Building

/-- Puts the open table in its place. -/
def close (b : Building) : Option Building :=
  match b.opened with
  | none => some { root := b.entries }
  | some o =>
    let table := Node.table false false b.entries
    let edit : Edit Unit := fun _ es =>
      match es.find? o.key with
      | none => if o.isElement then none else some (es.put o.key table, ())
      | some (.tables elements) =>
        if o.isElement then some (es.put o.key (.tables (elements ++ [table])), ()) else none
      | some _ => none
    (descend false edit o.path false b.root).map fun (root, _) => { root }

/-- Opens the table of a header. A table that is implicit so far is gone on with. -/
def openTable (b : Building) (path : List String) (key : String) : Option Building := do
  let b ← b.close
  let edit : Edit Entries := fun _ es =>
    match es.find? key with
    | none => some (es, [])
    | some (.table true false sub) => some (es.remove key, sub)
    | some _ => none
  let (root, entries) ← descend false edit path false b.root
  return { root, opened := some ⟨path, key, false⟩, entries }

/-- Opens one more table of the name of a header. -/
def openElement (b : Building) (path : List String) (key : String) : Option Building := do
  let b ← b.close
  let edit : Edit Unit := fun _ es =>
    match es.find? key with
    | none => some (es.put key (.tables []), ())
    | some (.tables _) => some (es, ())
    | some _ => none
  let (root, ()) ← descend false edit path false b.root
  return { root, opened := some ⟨path, key, true⟩ }

/-- Adds an entry to the open table. -/
def add (b : Building) (path : List String) (key : String) (n : Node) : Option Building := do
  return { b with entries := ← addEntry path key n b.entries }

end Building

mutual

/-- The tree of a node. -/
def Node.toTree : Node → Tree
  | .value t => t
  | .table _ _ entries => .table (entriesTree entries)
  | .tables elements => .list (elementsTree elements)

/-- The trees of entries. -/
def entriesTree : List (String × Node) → List (Option String × Tree)
  | [] => []
  | (key, n) :: rest => (some key, n.toTree) :: entriesTree rest

/-- The trees of a list of nodes. -/
def elementsTree : List Node → List Tree
  | [] => []
  | n :: rest => n.toTree :: elementsTree rest

end

end ProgressiveFrame.Toml
