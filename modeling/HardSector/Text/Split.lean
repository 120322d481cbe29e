/-!
# Splitting text

Text is split at the first occurrence of a separator, or at every one. Nothing is lost: the pieces
with the separators between them are the text, and no piece holds a separator that was split at.
-/

namespace HardSector.Text

/-- The text before the first separator and the text after it, if there is one. -/
def splitOnce (sep : Char) : List Char → Option (List Char × List Char)
  | [] => none
  | c :: cs =>
    if c = sep then some ([], cs)
    else (splitOnce sep cs).map fun (before, after) => (c :: before, after)

/-- The pieces between separators, of which there is one more than separators. -/
def splitAll (sep : Char) : List Char → List (List Char)
  | [] => [[]]
  | c :: cs =>
    if c = sep then [] :: splitAll sep cs
    else
      match splitAll sep cs with
      | [] => [[c]]
      | piece :: pieces => (c :: piece) :: pieces

/-- The two parts are what stands before and after the first separator. -/
theorem splitOnce_eq_some_iff {sep : Char} {cs before after : List Char} :
    splitOnce sep cs = some (before, after) ↔ cs = before ++ sep :: after ∧ sep ∉ before := by
  induction cs generalizing before with
  | nil => simp [splitOnce]
  | cons c cs ih =>
      by_cases hc : c = sep
      · subst hc
        cases before with
        | nil => simp [splitOnce, eq_comm]
        | cons b before => simp [splitOnce]; intro hb; simp [hb]
      · cases before with
        | nil => simp [splitOnce, hc]
        | cons b before =>
            simp only [splitOnce, hc, if_false, Option.map_eq_some_iff, Prod.mk.injEq,
              List.cons.injEq, Prod.exists, List.cons_append, List.mem_cons, not_or]
            constructor
            · rintro ⟨x, y, hxy, ⟨rfl, rfl⟩, rfl⟩
              obtain ⟨rfl, hmem⟩ := ih.mp hxy
              exact ⟨⟨rfl, rfl⟩, fun h => hc h.symm, hmem⟩
            · rintro ⟨⟨rfl, hcs⟩, _, hmem⟩
              exact ⟨before, after, ih.mpr ⟨hcs, hmem⟩, ⟨rfl, rfl⟩, rfl⟩

/-- Text is not split exactly if it holds no separator. -/
theorem splitOnce_eq_none_iff {sep : Char} {cs : List Char} :
    splitOnce sep cs = none ↔ sep ∉ cs := by
  induction cs with
  | nil => simp [splitOnce]
  | cons c cs ih =>
      by_cases hc : c = sep
      · simp [splitOnce, hc]
      · have hne : sep ≠ c := fun h => hc h.symm
        simp [splitOnce, hc, ih, hne]

/-- There is always at least one piece. -/
theorem splitAll_ne_nil (sep : Char) (cs : List Char) : splitAll sep cs ≠ [] := by
  cases cs with
  | nil => simp [splitAll]
  | cons c cs =>
      rw [splitAll]
      split
      · simp
      · split <;> simp

/-- The pieces with separators between them are the text. -/
theorem intercalate_splitAll (sep : Char) (cs : List Char) :
    [sep].intercalate (splitAll sep cs) = cs := by
  induction cs with
  | nil => simp [splitAll]
  | cons c cs ih =>
      rw [splitAll]
      split
      · rename_i hc
        subst hc
        cases hp : splitAll c cs with
        | nil => exact absurd hp (splitAll_ne_nil c cs)
        | cons piece pieces =>
            rw [hp] at ih
            simpa [List.intercalate] using ih
      · split
        · rename_i hp
          exact absurd hp (splitAll_ne_nil sep cs)
        · rename_i piece pieces hp
          rw [hp] at ih
          cases pieces with
          | nil => simpa [List.intercalate] using ih
          | cons next pieces => simpa [List.intercalate] using ih

end HardSector.Text
