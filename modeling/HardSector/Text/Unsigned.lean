/-!
# Unsigned numbers

An unsigned number is written with an optional plus sign and at least one ASCII digit. It is read by
its value, however many digits there are, and refused when the value reaches a bound.
-/

namespace HardSector.Text

/-- The value of an ASCII digit. -/
def digitValue? (c : Char) : Option Nat :=
  if '0' ≤ c ∧ c ≤ '9' then some (c.toNat - '0'.toNat) else none

/-- The value of a list of digits, read after the digits of `high`. -/
def readDigitsFrom : Nat → List Char → Option Nat
  | high, [] => some high
  | high, c :: cs => (digitValue? c).bind fun d => readDigitsFrom (10 * high + d) cs

/-- The value of a list of digits that is not empty. -/
def readDigits : List Char → Option Nat
  | [] => none
  | cs => readDigitsFrom 0 cs

/-- The number that a text denotes, if it is below the bound. -/
def readUnsigned (bound : Nat) (cs : List Char) : Option Nat :=
  let digits :=
    match cs with
    | '+' :: rest => rest
    | _ => cs
  (readDigits digits).filter fun n => decide (n < bound)

end HardSector.Text
