/-!
# Words of TOML

Readers for what a TOML document is made of below the level of values: blanks, comments, line ends,
keys and strings. A reader takes characters and gives what it read with the characters after it, or
nothing if the text is malformed.
-/

namespace HardSector.Toml

/-- A reader of some part of a document. -/
abbrev Reader (α : Type) := List Char → Option (α × List Char)

/-- The quotation mark of basic strings. -/
def quote : Char := '"'

/-- The apostrophe of literal strings. -/
def apostrophe : Char := Char.ofNat 0x27

/-- Whether a character is a blank within a line. -/
def isBlank (c : Char) : Bool := c == ' ' || c == '\t'

/-- Whether a character may stand in a comment or a literal string: no control but the tab. -/
def isPlain (c : Char) : Bool :=
  c == '\t' || (decide (0x20 ≤ c.toNat) && c.toNat != 0x7F)

/-- Whether a character may stand in a key without quotes. -/
def isBare (c : Char) : Bool := c.isAlphanum || c == '_' || c == '-'

/-- The text without the blanks at its start. -/
def skipBlanks (cs : List Char) : List Char := cs.dropWhile isBlank

/-- The text after a line end. -/
def newline? : List Char → Option (List Char)
  | '\n' :: cs => some cs
  | '\r' :: '\n' :: cs => some cs
  | _ => none

/-- The text without a comment at its start. -/
def skipComment : List Char → List Char
  | '#' :: cs => cs.dropWhile isPlain
  | cs => cs

/-- The text after the rest of a line that holds nothing more than blanks and a comment. -/
def lineEnd? (cs : List Char) : Option (List Char) :=
  match skipComment (skipBlanks cs) with
  | [] => some []
  | cs => newline? cs

/-- The text without blanks, comments and line ends at its start, at most `fuel` lines of them. -/
def skipLines : Nat → List Char → List Char
  | 0, cs => cs
  | fuel + 1, cs =>
    let cs := skipBlanks cs
    match newline? (skipComment cs) with
    | none => cs
    | some cs => skipLines fuel cs

/-- The text without blanks, comments and line ends at its start. -/
def skipAll (cs : List Char) : List Char := skipLines cs.length cs

/-- The value of a hexadecimal digit of either case. -/
def hexDigit? (c : Char) : Option Nat :=
  if c.isDigit then some (c.toNat - '0'.toNat)
  else if 'a' ≤ c ∧ c ≤ 'f' then some (c.toNat - 'a'.toNat + 10)
  else if 'A' ≤ c ∧ c ≤ 'F' then some (c.toNat - 'A'.toNat + 10)
  else none

/-- The character whose number is written with a set count of hexadecimal digits. -/
def codePoint (digits : Nat) (cs : List Char) : Option (Char × List Char) := do
  let number := cs.take digits
  guard (number.length = digits)
  let value ← number.foldlM (fun value c => (hexDigit? c).map (16 * value + ·)) 0
  guard (value.isValidChar)
  some (Char.ofNat value, cs.drop digits)

/-- The character that an escape stands for, read after the backslash. -/
def escape : Reader Char
  | 'b' :: cs => some ('\x08', cs)
  | 't' :: cs => some ('\t', cs)
  | 'n' :: cs => some ('\n', cs)
  | 'f' :: cs => some ('\x0c', cs)
  | 'r' :: cs => some ('\r', cs)
  | '"' :: cs => some ('"', cs)
  | '\\' :: cs => some ('\\', cs)
  | 'u' :: cs => codePoint 4 cs
  | 'U' :: cs => codePoint 8 cs
  | _ => none

/-- The characters of a basic string up to its closing quote, in at most `fuel` steps. -/
def basicBody : Nat → Reader (List Char)
  | 0, _ => none
  | _, [] => none
  | fuel + 1, c :: cs =>
    if c = quote then some ([], cs)
    else if c = '\\' then do
      let (read, cs) ← escape cs
      let (body, cs) ← basicBody fuel cs
      some (read :: body, cs)
    else if isPlain c then do
      let (body, cs) ← basicBody fuel cs
      some (c :: body, cs)
    else none

/-- The characters of a literal string up to its closing apostrophe. -/
def literalBody : Reader (List Char)
  | [] => none
  | c :: cs =>
    if c = apostrophe then some ([], cs)
    else if isPlain c then do
      let (body, cs) ← literalBody cs
      some (c :: body, cs)
    else none

/-- The text without blanks and line ends at its start. -/
def skipSpace : List Char → List Char
  | [] => []
  | '\r' :: '\n' :: cs => skipSpace cs
  | c :: cs => if isBlank c || c == '\n' then skipSpace cs else c :: cs

/-- The text after a backslash at the end of a line: blanks and line ends are passed over up to the
next other character. There must be a line end. -/
def joinedLine? (cs : List Char) : Option (List Char) :=
  (newline? (skipBlanks cs)).map skipSpace

/-- The characters of a string of several lines up to the three marks that close it. Up to two marks
more may stand before these and belong to the string. Escapes are read where `escapes` says so. -/
def multilineBody (mark : Char) (escapes : Bool) : Nat → Reader (List Char)
  | 0, _ => none
  | _, [] => none
  | fuel + 1, c :: cs =>
    if c = mark then
      let run := (c :: cs).takeWhile (· == mark)
      let rest := (c :: cs).dropWhile (· == mark)
      if run.length < 3 then do
        let (body, cs) ← multilineBody mark escapes fuel rest
        some (run ++ body, cs)
      else if run.length ≤ 5 then some (run.drop 3, rest)
      else none
    else if escapes && c == '\\' then
      match joinedLine? cs with
      | some cs => multilineBody mark escapes fuel cs
      | none => do
        let (read, cs) ← escape cs
        let (body, cs) ← multilineBody mark escapes fuel cs
        some (read :: body, cs)
    else
      match newline? (c :: cs) with
      | some cs => do
        let (body, cs) ← multilineBody mark escapes fuel cs
        some ('\n' :: body, cs)
      | none =>
        if isPlain c then do
          let (body, cs) ← multilineBody mark escapes fuel cs
          some (c :: body, cs)
        else none

/-- The text of a string of several lines, read after its opening marks. A line end right there does
not count. -/
def multiline (mark : Char) (escapes : Bool) (cs : List Char) : Option (List Char × List Char) :=
  let cs := (newline? cs).getD cs
  multilineBody mark escapes (cs.length + 1) cs

/-- A string of one line, with either mark. -/
def simpleString : Reader String := fun cs =>
  match cs with
  | [] => none
  | c :: rest =>
    if c = quote then
      (basicBody (rest.length + 1) rest).map fun (body, cs) => (String.ofList body, cs)
    else if c = apostrophe then
      (literalBody rest).map fun (body, cs) => (String.ofList body, cs)
    else none

/-- A string of any kind. -/
def string : Reader String := fun cs =>
  if cs.take 3 = [quote, quote, quote] then
    (multiline quote true (cs.drop 3)).map fun (body, cs) => (String.ofList body, cs)
  else if cs.take 3 = [apostrophe, apostrophe, apostrophe] then
    (multiline apostrophe false (cs.drop 3)).map fun (body, cs) => (String.ofList body, cs)
  else simpleString cs

/-- A key without dots: bare, or a string of one line. -/
def simpleKey : Reader String := fun cs =>
  match cs.takeWhile isBare with
  | [] => simpleString cs
  | bare => some (String.ofList bare, cs.dropWhile isBare)

/-- Keys with dots between them, blanks around each, at most `fuel` of them. -/
def keysWithin : Nat → Reader (List String)
  | 0, _ => none
  | fuel + 1, cs => do
    let (key, cs) ← simpleKey (skipBlanks cs)
    match skipBlanks cs with
    | '.' :: cs => do
      let (keys, cs) ← keysWithin fuel cs
      some (key :: keys, cs)
    | cs => some ([key], cs)

/-- How many containers may lie within each other, and how many parts a key may have, less one. -/
def depthLimit : Nat := 79

/-- A key: the path of its parts but the last, and the last. -/
def key : Reader (List String × String) := fun cs => do
  let (keys, cs) ← keysWithin depthLimit cs
  let last ← keys.getLast?
  some ((keys.dropLast, last), cs)

end HardSector.Toml
