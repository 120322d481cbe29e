import HardSector.Proofs.Text.Numeral
import HardSector.Text.Blank
import Mathlib.Data.List.TakeWhile

/-!
# What trimming leaves

Trimming takes the blanks from both ends of a text and nothing else. As no character of a numeral
is blank, a trimmed text is a numeral exactly if the text is that numeral with blanks around it.
-/

namespace HardSector.Text

/-- A text of nothing but blanks. -/
def Blanks (cs : List Char) : Prop := ∀ c ∈ cs, isBlank c = true

instance (cs : List Char) : Decidable (Blanks cs) :=
  List.decidableBAll (fun c => isBlank c = true) cs

/-- Blanks before a text that begins with none are dropped, and nothing behind them. -/
theorem dropWhile_blanks {blanks core : List Char} (hblanks : Blanks blanks) (hne : core ≠ [])
    (hcore : ∀ c ∈ core, isBlank c = false) (rest : List Char) :
    (blanks ++ (core ++ rest)).dropWhile isBlank = core ++ rest := by
  obtain ⟨c, core, rfl⟩ := List.exists_cons_of_ne_nil hne
  have hc : isBlank c = false := hcore c List.mem_cons_self
  rw [List.dropWhile_append_of_pos hblanks, List.cons_append, List.dropWhile_cons, hc]
  rfl

/-- A text without blanks is what trimming leaves of it with blanks around it. -/
theorem trim_padded {left core right : List Char} (hleft : Blanks left) (hne : core ≠ [])
    (hcore : ∀ c ∈ core, isBlank c = false) (hright : Blanks right) :
    trim (left ++ core ++ right) = core := by
  have hback : Blanks right.reverse := fun c hc => hright c (List.mem_reverse.mp hc)
  have hcore' : ∀ c ∈ core.reverse, isBlank c = false := fun c hc =>
    hcore c (List.mem_reverse.mp hc)
  have hne' : core.reverse ≠ [] := mt List.reverse_eq_nil_iff.mp hne
  have hfront := dropWhile_blanks hleft hne hcore right
  have hend := dropWhile_blanks hback hne' hcore' []
  rw [List.append_nil] at hend
  rw [trim, List.append_assoc, hfront, List.reverse_append, hend, List.reverse_reverse]

/-- What trimming takes from a text is blank. -/
theorem exists_padding (cs : List Char) :
    ∃ left right, cs = left ++ trim cs ++ right ∧ Blanks left ∧ Blanks right := by
  have hblanks (cs : List Char) : Blanks (cs.takeWhile isBlank) := fun c hc =>
    List.mem_takeWhile_imp hc
  let rest := cs.dropWhile isBlank
  have hback : rest = trim cs ++ (rest.reverse.takeWhile isBlank).reverse := by
    rw [trim, ← List.reverse_append, List.takeWhile_append_dropWhile, List.reverse_reverse]
  refine ⟨cs.takeWhile isBlank, (rest.reverse.takeWhile isBlank).reverse, ?_, hblanks cs,
    fun c hc => hblanks _ c (List.mem_reverse.mp hc)⟩
  rw [List.append_assoc, ← hback, List.takeWhile_append_dropWhile]

/-- A numeral with blanks around it. -/
def PaddedNumeral (cs : List Char) (n : Nat) : Prop :=
  ∃ left numeral right, cs = left ++ numeral ++ right ∧ Blanks left ∧ Blanks right ∧
    Numeral numeral n

/-- No character of a numeral is blank. -/
theorem Numeral.isBlank_eq_false {cs : List Char} {n : Nat} (hnumeral : Numeral cs n) :
    ∀ c ∈ cs, isBlank c = false := by
  intro c hc
  rcases hnumeral.of_mem hc with rfl | hdigit
  · decide
  · exact isBlank_eq_false_of_digit hdigit

/-- A numeral is not empty. -/
theorem Numeral.ne_nil {cs : List Char} {n : Nat} (hnumeral : Numeral cs n) : cs ≠ [] := by
  obtain ⟨digits, rfl | rfl, hne, _⟩ := hnumeral
  · exact hne
  · exact List.cons_ne_nil _ _

/-- A text is a numeral once it is trimmed exactly if it is the numeral with blanks around it. -/
theorem numeral_trim_iff {cs : List Char} {n : Nat} :
    Numeral (trim cs) n ↔ PaddedNumeral cs n := by
  constructor
  · intro hnumeral
    obtain ⟨left, right, hcs, hleft, hright⟩ := exists_padding cs
    exact ⟨left, trim cs, right, hcs, hleft, hright, hnumeral⟩
  · rintro ⟨left, numeral, right, rfl, hleft, hright, hnumeral⟩
    rwa [trim_padded hleft hnumeral.ne_nil hnumeral.isBlank_eq_false hright]

/-- A text has one value at most. -/
theorem Numeral.value_inj {cs : List Char} {n m : Nat} (hn : Numeral cs n) (hm : Numeral cs m) :
    n = m := by
  have hread : readUnsigned (n + m + 1) cs = some n :=
    readUnsigned_eq_some_iff.mpr ⟨hn, by omega⟩
  have hread' : readUnsigned (n + m + 1) cs = some m :=
    readUnsigned_eq_some_iff.mpr ⟨hm, by omega⟩
  exact Option.some.inj (hread.symm.trans hread')

end HardSector.Text
