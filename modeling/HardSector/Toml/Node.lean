/-!
# TOML documents as trees

A document is a tree of tables. Tables come about in different ways, and it depends on the way
whether a table may be extended later: by a header of its own, by a longer header that leads through
it, by a dotted key, or in braces. `amend` changes one table of a tree and makes the tables on the
way to it.
-/

namespace HardSector.Toml

/-- How a table came about. -/
inductive Form where
  /-- By a header of its own, or as the root. -/
  | header
  /-- By a header that leads through it. -/
  | implied
  /-- By a dotted key. -/
  | dotted
  /-- In braces. -/
  | braces
deriving DecidableEq, Repr

/-- A value. Floating-point numbers and moments are kept without their values. -/
inductive Node where
  | text (value : String)
  | integer (value : Int)
  | float
  | boolean (value : Bool)
  | moment
  | array (items : List Node)
  | table (form : Form) (entries : List (String × Node))
  | tables (elements : List (List (String × Node)))

/-- The keys of a table with their values, in order of appearance. -/
abbrev Entries := List (String × Node)

namespace Entries

/-- Give a key of a table another value. -/
def replace (entries : Entries) (key : String) (node : Node) : Entries :=
  entries.map fun entry => if entry.1 = key then (key, node) else entry

end Entries

/-- A change of one table, which knows how the table came about and may refuse. -/
abbrev Amendment := Form → Entries → Option (Form × Entries)

/-- Change the table to which a path leads. Missing tables on the way are made, in the form that
fits the way the path was written. The way leads through the last element of an array of tables. A
dotted key leads through no table that has a header of its own, and nothing leads through a table in
braces that is finished. -/
def amend (dotted : Bool) (change : Amendment) : List String → Amendment
  | [], form, entries => change form entries
  | key :: path, form, entries =>
    match entries.lookup key with
    | none => do
      let (made, inner) ← amend dotted change path (if dotted then .dotted else .implied) []
      some (form, entries ++ [(key, .table made inner)])
    | some (.table found inner) =>
      if found = .braces ∨ (dotted ∧ found = .header) then none
      else do
        let (found, inner) ← amend dotted change path found inner
        some (form, entries.replace key (.table found inner))
    | some (.tables elements) =>
      match elements.getLast? with
      | none => none
      | some last => do
        let (_, last) ← amend dotted change path .header last
        some (form, entries.replace key (.tables (elements.dropLast ++ [last])))
    | some _ => none

/-- Add a value under a dotted key. The key must be new, and only tables that were made by dotted
keys are extended by them. -/
def insert (path : List String) (key : String) (node : Node) : Amendment :=
  amend true (fun form entries =>
    if (form == .dotted) == path.isEmpty then none
    else if (entries.lookup key).isSome then none
    else some (form, entries ++ [(key, node)])) path

/-- Open the table of a header: a new one, or one that other headers have led through. -/
def openTable (key : String) : Amendment := fun form entries =>
  match entries.lookup key with
  | none => some (form, entries ++ [(key, .table .header [])])
  | some (.table .implied inner) => some (form, entries.replace key (.table .header inner))
  | some _ => none

/-- Open the next table of an array of tables. -/
def openElement (key : String) : Amendment := fun form entries =>
  match entries.lookup key with
  | none => some (form, entries ++ [(key, .tables [[]])])
  | some (.tables elements) =>
    some (form, entries.replace key (.tables (elements ++ [[]])))
  | some _ => none

end HardSector.Toml
