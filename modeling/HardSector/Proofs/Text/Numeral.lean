import HardSector.Text.Unsigned

/-!
# Unsigned numerals

What is read as an unsigned number is exactly an optional plus sign and a row of ASCII digits
whose value is below the bound, however long the row is. Every number reads back from its
decimal digits.
-/

namespace HardSector.Text

/-- A text writes a number: an optional plus sign and at least one ASCII digit, of this value. -/
def Numeral (cs : List Char) (n : Nat) : Prop :=
  ∃ digits, (cs = digits ∨ cs = '+' :: digits) ∧ digits ≠ [] ∧
    (∀ c ∈ digits, '0' ≤ c ∧ c ≤ '9') ∧ Nat.ofDigitChars 10 digits 0 = n

/-- Characters are read exactly if they all are digits, and their value follows that of the digits
before them. -/
theorem readDigitsFrom_eq_some_iff {high n : Nat} {cs : List Char} :
    readDigitsFrom high cs = some n ↔
      (∀ c ∈ cs, '0' ≤ c ∧ c ≤ '9') ∧ Nat.ofDigitChars 10 cs high = n := by
  induction cs generalizing high with
  | nil => simp [readDigitsFrom, Nat.ofDigitChars]
  | cons c cs ih =>
    unfold readDigitsFrom digitValue?
    by_cases hc : '0' ≤ c ∧ c ≤ '9'
    · rw [if_pos hc, Option.bind_some, ih, List.forall_mem_cons]
      simp only [hc, true_and, Nat.ofDigitChars, List.foldl_cons]
    · rw [if_neg hc, Option.bind_none, List.forall_mem_cons]
      simp only [reduceCtorEq, hc, false_and]

/-- A row of digits is read by its value if it is not empty. -/
theorem readDigits_eq_some_iff {n : Nat} {cs : List Char} :
    readDigits cs = some n ↔
      cs ≠ [] ∧ (∀ c ∈ cs, '0' ≤ c ∧ c ≤ '9') ∧ Nat.ofDigitChars 10 cs 0 = n := by
  cases cs with
  | nil => simp [readDigits]
  | cons c cs =>
    rw [readDigits, readDigitsFrom_eq_some_iff]
    · simp
    · exact nofun

/-- A number is read exactly if a numeral writes it and it is below the bound. -/
theorem readUnsigned_eq_some_iff {bound n : Nat} {cs : List Char} :
    readUnsigned bound cs = some n ↔ Numeral cs n ∧ n < bound := by
  unfold readUnsigned
  rw [Option.filter_eq_some_iff, decide_eq_true_eq, readDigits_eq_some_iff]
  refine and_congr_left fun _ => ?_
  split
  · next rest =>
    constructor
    · exact fun hdigits => ⟨rest, Or.inr rfl, hdigits⟩
    · rintro ⟨digits, rfl | hsigned, hne, hdigits, hvalue⟩
      · exact absurd (hdigits '+' List.mem_cons_self) (by decide)
      · cases hsigned
        exact ⟨hne, hdigits, hvalue⟩
  · next hunsigned =>
    constructor
    · exact fun hdigits => ⟨cs, Or.inl rfl, hdigits⟩
    · rintro ⟨digits, rfl | rfl, hdigits⟩
      · exact hdigits
      · exact absurd rfl (hunsigned digits)

/-- A numeral holds nothing but digits and a plus sign. -/
theorem Numeral.of_mem {cs : List Char} {n : Nat} (hnumeral : Numeral cs n) {c : Char}
    (hc : c ∈ cs) : c = '+' ∨ '0' ≤ c ∧ c ≤ '9' := by
  obtain ⟨digits, rfl | rfl, _, hdigits, _⟩ := hnumeral
  · exact Or.inr (hdigits c hc)
  · rcases List.mem_cons.mp hc with rfl | hc
    · exact Or.inl rfl
    · exact Or.inr (hdigits c hc)

/-- A number is written by its decimal digits. -/
theorem numeral_toDigits (n : Nat) : Numeral (Nat.toDigits 10 n) n := by
  refine ⟨_, Or.inl rfl, Nat.toDigits_ne_nil, fun c hc => ?_,
    Nat.ofDigitChars_toDigits (by decide) (by decide)⟩
  have hdigit := Nat.isDigit_of_mem_toDigits (by decide) (by decide) hc
  rwa [Char.isDigit, Bool.and_eq_true, decide_eq_true_eq, decide_eq_true_eq] at hdigit

end HardSector.Text
