import HardSector.Toml.Lexical
import HardSector.Toml.Node
import HardSector.Toml.Scalar

/-!
# Reading TOML documents

A document is read line by line: a header opens a table, and a key with a value adds to the table
that was opened last. Values may be containers, which lie within each other up to a limit.
-/

namespace HardSector.Toml

/-- The items of an array up to the closing bracket, read with a reader of items, at most `fuel` of
them. Blanks, comments and line ends may stand between items, and a comma after the last. -/
def itemsWithin (item : Reader Node) : Nat → Reader (List Node)
  | 0, _ => none
  | fuel + 1, cs =>
    match skipAll cs with
    | ']' :: cs => some ([], cs)
    | cs => do
      let (first, cs) ← item cs
      match skipAll cs with
      | ',' :: cs => do
        let (items, cs) ← itemsWithin item fuel cs
        some (first :: items, cs)
      | ']' :: cs => some ([first], cs)
      | _ => none

/-- The keys and values of a table in braces up to the closing brace, read with a reader of values
and added to those that are there, at most `fuel` of them. All stand on one line. -/
def pairsWithin (item : Reader Node) : Nat → Entries → Reader Entries
  | 0, _, _ => none
  | fuel + 1, entries, cs => do
    let ((path, last), cs) ← key cs
    let cs ← expect '=' (skipBlanks cs)
    let (node, cs) ← item (skipBlanks cs)
    let (_, entries) ← insert path last node .header entries
    match skipBlanks cs with
    | ',' :: cs => pairsWithin item fuel entries cs
    | '}' :: cs => some (entries, cs)
    | _ => none

/-- A value in which containers lie within each other at most `depth` deep. -/
def value : Nat → Reader Node := fun depth cs =>
  match cs with
  | '[' :: rest =>
    match depth with
    | 0 => none
    | depth + 1 =>
      (itemsWithin (value depth) (rest.length + 1) rest).map fun (items, cs) => (.array items, cs)
  | '{' :: rest =>
    match depth with
    | 0 => none
    | depth + 1 =>
      match skipBlanks rest with
      | '}' :: cs => some (.table .braces [], cs)
      | rest =>
        (pairsWithin (value depth) (rest.length + 1) [] rest).map fun (entries, cs) =>
          (.table .braces entries, cs)
  | c :: _ =>
    if c = quote || c = apostrophe then
      (string cs).map fun (text, cs) => (.text text, cs)
    else
      let (run, cs) := word cs
      (scalar? run).map fun node => (node, cs)
  | [] => none

/-- A document as far as it has been read: its entries, and the path of the table that is open. -/
structure Document where
  entries : Entries := []
  opened : List String := []

namespace Document

/-- Open the table of a header. -/
def openHeader (doc : Document) (path : List String) (last : String) (element : Bool) :
    Option Document := do
  let change := if element then openElement last else openTable last
  let (_, entries) ← amend false change path .header doc.entries
  some ⟨entries, path ++ [last]⟩

/-- Add a key with a value to the table that is open. -/
def add (doc : Document) (path : List String) (last : String) (node : Node) : Option Document := do
  let (_, entries) ← amend false (insert path last node) doc.opened .header doc.entries
  some { doc with entries := entries }

/-- Read a header after its first bracket, up to the end of the line. -/
def header (doc : Document) (cs : List Char) : Option (Document × List Char) :=
  match cs with
  | '[' :: cs => do
    let ((path, last), cs) ← key cs
    let cs ← expect ']' cs
    let cs ← expect ']' cs
    let doc ← doc.openHeader path last true
    let cs ← lineEnd? cs
    some (doc, cs)
  | cs => do
    let ((path, last), cs) ← key cs
    let cs ← expect ']' cs
    let doc ← doc.openHeader path last false
    let cs ← lineEnd? cs
    some (doc, cs)

/-- Read a key with a value, up to the end of the line. -/
def assignment (doc : Document) (cs : List Char) : Option (Document × List Char) := do
  let ((path, last), cs) ← key cs
  let cs ← expect '=' cs
  let (node, cs) ← value depthLimit (skipBlanks cs)
  let doc ← doc.add path last node
  let cs ← lineEnd? cs
  some (doc, cs)

/-- Read the lines of a text, at most `fuel` of them that are not empty. -/
def readWithin : Nat → Document → List Char → Option Document
  | 0, _, _ => none
  | fuel + 1, doc, cs =>
    match skipAll cs with
    | [] => some doc
    | '[' :: cs => do
      let (doc, cs) ← doc.header cs
      readWithin fuel doc cs
    | '#' :: cs => if cs.all isPlain then some doc else none
    | cs => do
      let (doc, cs) ← doc.assignment cs
      readWithin fuel doc cs

/-- The text without a byte order mark at its start. -/
def withoutMark : List Char → List Char
  | '\uFEFF' :: cs => cs
  | cs => cs

/-- The entries of the document that a text denotes. -/
def read (text : String) : Option Entries :=
  let cs := withoutMark text.toList
  (readWithin (cs.length + 1) {} cs).map Document.entries

end Document

end HardSector.Toml
