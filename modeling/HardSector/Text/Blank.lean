/-!
# Blank characters

The characters that Unicode counts as white space, and text without them at its ends.
-/

namespace HardSector.Text

/-- The ranges of code points with the property White_Space, ends included. -/
def blankRanges : List (Nat × Nat) :=
  [(0x0009, 0x000D), (0x0020, 0x0020), (0x0085, 0x0085), (0x00A0, 0x00A0), (0x1680, 0x1680),
    (0x2000, 0x200A), (0x2028, 0x2029), (0x202F, 0x202F), (0x205F, 0x205F), (0x3000, 0x3000)]

/-- Whether a character is blank. -/
def isBlank (c : Char) : Bool :=
  blankRanges.any fun (first, last) => decide (first ≤ c.toNat) && decide (c.toNat ≤ last)

/-- Text without the blanks at its ends. -/
def trim (cs : List Char) : List Char :=
  ((cs.dropWhile isBlank).reverse.dropWhile isBlank).reverse

/-- There are twenty-five blank characters. -/
example : (blankRanges.map fun (first, last) => last - first + 1).sum = 25 := by decide

/-- The digits are not blank. -/
theorem isBlank_eq_false_of_digit {c : Char} (hc : '0' ≤ c ∧ c ≤ '9') : isBlank c = false := by
  have hlow : 48 ≤ c.toNat := hc.1
  have hhigh : c.toNat ≤ 57 := hc.2
  simp [isBlank, blankRanges]
  omega

end HardSector.Text
