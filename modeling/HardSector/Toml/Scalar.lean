import HardSector.Toml.Node

/-!
# Numbers, truth values and moments of TOML

Scalars without quotes are words: runs of letters, digits and a few signs, of which a blank may join
a date and a time. A word is a scalar if all of it is one. Integers have sixty-four bits with a
sign.
-/

namespace HardSector.Toml

/-- Whether a character may stand in a word. -/
def isWordChar (c : Char) : Bool := c.isAlphanum || ['+', '-', '_', '.', ':'].contains c

/-- The digits of a run in which single underscores may stand between digits. -/
def digitRun (isDigit : Char → Bool) : List Char → Option (List Char)
  | [] => none
  | [c] => if isDigit c then some [c] else none
  | c :: d :: cs =>
    if !isDigit c then none
    else if d = '_' then (digitRun isDigit cs).map (c :: ·)
    else (digitRun isDigit (d :: cs)).map (c :: ·)

/-- The value of a digit in a base of at most sixteen. -/
def digit (c : Char) : Nat :=
  if c.isDigit then c.toNat - '0'.toNat
  else if 'a' ≤ c ∧ c ≤ 'f' then c.toNat - 'a'.toNat + 10
  else c.toNat - 'A'.toNat + 10

/-- The value of digits in a base. -/
def valueOf (base : Nat) (digits : List Char) : Nat :=
  digits.foldl (fun value c => base * value + digit c) 0

/-- A sign, if there is one, and the text after it. -/
def signed : List Char → Bool × List Char
  | '-' :: cs => (true, cs)
  | '+' :: cs => (false, cs)
  | cs => (false, cs)

/-- The digits of a decimal run without a leading zero. -/
def decimalRun (cs : List Char) : Option (List Char) :=
  match cs with
  | ['0'] => some ['0']
  | '0' :: _ => none
  | _ => digitRun Char.isDigit cs

/-- An integer of sixty-four bits. -/
def fitting (value : Int) : Option Int :=
  if -0x8000000000000000 ≤ value ∧ value < 0x8000000000000000 then some value else none

/-- The integer that a word denotes: decimal with an optional sign, or hexadecimal, octal or binary
after its mark. -/
def integer? (word : List Char) : Option Int :=
  match word with
  | '0' :: 'x' :: cs =>
    (digitRun (fun c => c.isDigit || decide ('a' ≤ c ∧ c ≤ 'f') || decide ('A' ≤ c ∧ c ≤ 'F'))
      cs).bind fun digits => fitting (valueOf 16 digits)
  | '0' :: 'o' :: cs =>
    (digitRun (fun c => decide ('0' ≤ c ∧ c ≤ '7')) cs).bind fun digits =>
      fitting (valueOf 8 digits)
  | '0' :: 'b' :: cs =>
    (digitRun (fun c => c == '0' || c == '1') cs).bind fun digits => fitting (valueOf 2 digits)
  | _ =>
    let (negative, cs) := signed word
    (decimalRun cs).bind fun digits =>
      let value : Int := valueOf 10 digits
      fitting (if negative then -value else value)

/-- Whether a decimal `digits * 10 ^ exponent` is as large as no double is, that is, rounds to
infinity. Exponents far from the decision are settled by the number of digits alone. -/
def exceedsDoubles (digits : List Char) (exponent : Int) : Bool :=
  let digits := digits.dropWhile (· == '0')
  let magnitude := (digits.length : Int) + exponent
  if digits.isEmpty || magnitude < 300 then false
  else if 320 < magnitude then true
  else
    let value := valueOf 10 digits
    let bound := Nat.pow 2 1024 - Nat.pow 2 970
    match exponent with
    | .ofNat e => decide (bound ≤ value * Nat.pow 10 e)
    | .negSucc e => decide (bound * Nat.pow 10 (e + 1) ≤ value)

/-- Split a word at the first character of a kind. -/
def splitWord (isMark : Char → Bool) (word : List Char) : List Char × Option (List Char) :=
  match word.dropWhile fun c => !isMark c with
  | [] => (word, none)
  | _ :: cs => (word.takeWhile fun c => !isMark c, some cs)

/-- Whether a word is a floating-point number: decimal digits with a fraction, an exponent or both,
or a name for infinity or no number. One that rounds to positive infinity is refused. -/
def isFloat (word : List Char) : Bool :=
  let (negative, cs) := signed word
  if cs = ['i', 'n', 'f'] || cs = ['n', 'a', 'n'] then true
  else
    let (mantissa, exponent) := splitWord (fun c => c == 'e' || c == 'E') cs
    let (whole, fraction) := splitWord (· == '.') mantissa
    let read : Option (List Char × List Char × Int) := do
      let whole ← decimalRun whole
      let fraction ← match fraction with
        | none => some []
        | some cs => digitRun Char.isDigit cs
      let power ← match exponent with
        | none => some (0 : Int)
        | some cs =>
          let (down, cs) := signed cs
          (digitRun Char.isDigit cs).map fun digits =>
            let value : Int := valueOf 10 digits
            if down then -value else value
      guard (fraction ≠ [] ∨ exponent.isSome)
      some (whole, fraction, power)
    match read with
    | none => false
    | some (whole, fraction, power) =>
      negative || !exceedsDoubles (whole ++ fraction) (power - fraction.length)

/-- A number of a set count of decimal digits within bounds, and the text after it. -/
def fixedNumber (count low high : Nat) (cs : List Char) : Option (Nat × List Char) :=
  let digits := cs.take count
  if digits.length = count && digits.all Char.isDigit then
    let value := valueOf 10 digits
    if low ≤ value && value ≤ high then some (value, cs.drop count) else none
  else none

/-- The text after a set character. -/
def expect (c : Char) : List Char → Option (List Char)
  | d :: cs => if c = d then some cs else none
  | [] => none

/-- The number of days of a month. -/
def daysIn (year month : Nat) : Nat :=
  if month = 2 then
    if year % 4 = 0 ∧ (year % 100 ≠ 0 ∨ year % 400 = 0) then 29 else 28
  else if month = 4 ∨ month = 6 ∨ month = 9 ∨ month = 11 then 30
  else 31

/-- The text after a date. -/
def date (cs : List Char) : Option (List Char) := do
  let (year, cs) ← fixedNumber 4 0 9999 cs
  let cs ← expect '-' cs
  let (month, cs) ← fixedNumber 2 1 12 cs
  let cs ← expect '-' cs
  let (_, cs) ← fixedNumber 2 1 (daysIn year month) cs
  some cs

/-- The text after a time of day, to the second or to a fraction of it. -/
def time (cs : List Char) : Option (List Char) := do
  let (_, cs) ← fixedNumber 2 0 23 cs
  let cs ← expect ':' cs
  let (_, cs) ← fixedNumber 2 0 59 cs
  let cs ← expect ':' cs
  let (_, cs) ← fixedNumber 2 0 60 cs
  match cs with
  | '.' :: rest =>
    match rest.takeWhile Char.isDigit with
    | [] => none
    | _ => some (rest.dropWhile Char.isDigit)
  | cs => some cs

/-- Whether a text is an offset from universal time, or nothing. -/
def isOffset (cs : List Char) : Bool :=
  match cs with
  | [] => true
  | ['Z'] => true
  | ['z'] => true
  | c :: cs =>
    (c == '+' || c == '-') &&
      (do
        let (_, cs) ← fixedNumber 2 0 23 cs
        let cs ← expect ':' cs
        let (_, cs) ← fixedNumber 2 0 59 cs
        guard (cs = []) : Option Unit).isSome

/-- Whether a word is a time of day, a date, or a date with a time and perhaps an offset. -/
def isMoment (word : List Char) : Bool :=
  match date word with
  | none => time word == some []
  | some [] => true
  | some (c :: cs) =>
    (c == 'T' || c == 't' || c == ' ') &&
      match time cs with
      | none => false
      | some cs => isOffset cs

/-- A word, and the text after it. A blank joins a date and a word that starts with a digit. -/
def word (cs : List Char) : List Char × List Char :=
  let first := cs.takeWhile isWordChar
  let rest := cs.dropWhile isWordChar
  match rest with
  | ' ' :: d :: _ =>
    if date first = some [] && d.isDigit then
      (first ++ ' ' :: (rest.drop 1).takeWhile isWordChar, (rest.drop 1).dropWhile isWordChar)
    else (first, rest)
  | _ => (first, rest)

/-- The scalar that a word denotes. -/
def scalar? (word : List Char) : Option Node :=
  if word = ['t', 'r', 'u', 'e'] then some (.boolean true)
  else if word = ['f', 'a', 'l', 's', 'e'] then some (.boolean false)
  else if isMoment word then some .moment
  else
    match integer? word with
    | some value => some (.integer value)
    | none => if isFloat word then some .float else none

end HardSector.Toml
