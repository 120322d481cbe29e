import HardSector.Text.Split
import Mathlib.Data.List.TakeWhile

/-!
# What splitting gives

A text that is split once falls into what stands before the first separator and what stands
behind it. Split at every separator it falls into the pieces between them, and pieces that
were joined are found again, also if nothing stands behind the last separator.
-/

namespace HardSector.Text

/-- What stands before the first separator, all of the text if there is none. -/
def before (sep : Char) (cs : List Char) : List Char := cs.takeWhile (· != sep)

/-- What stands behind the first separator, nothing if there is none. -/
def behind (sep : Char) (cs : List Char) : List Char := (cs.dropWhile (· != sep)).tail

/-- The characters of a text without a separator differ from it. -/
theorem bne_of_mem {sep : Char} {cs : List Char} (hsep : sep ∉ cs) :
    ∀ c ∈ cs, (c != sep) = true := by
  rintro c hc
  rw [bne_iff_ne]
  rintro rfl
  exact hsep hc

/-- A text without a separator stands before it. -/
theorem before_of_not_mem {sep : Char} {cs : List Char} (hsep : sep ∉ cs) :
    before sep cs = cs ∧ behind sep cs = [] := by
  unfold before behind
  rw [List.takeWhile_eq_self_iff.mpr (bne_of_mem hsep),
    List.dropWhile_eq_nil_iff.mpr (bne_of_mem hsep)]
  exact ⟨rfl, rfl⟩

/-- The two parts that stand before and behind a separator. -/
theorem before_append {sep : Char} {left : List Char} (hsep : sep ∉ left) (right : List Char) :
    before sep (left ++ sep :: right) = left ∧ behind sep (left ++ sep :: right) = right := by
  unfold before behind
  rw [List.takeWhile_append_of_pos (bne_of_mem hsep),
    List.dropWhile_append_of_pos (bne_of_mem hsep)]
  simp

/-- A text is split once where it holds the separator. -/
theorem splitOnce_eq (sep : Char) (cs : List Char) :
    splitOnce sep cs = if sep ∈ cs then some (before sep cs, behind sep cs) else none := by
  split
  · next hmem =>
    obtain ⟨left, right, rfl, hsep⟩ := List.eq_append_cons_of_mem hmem
    obtain ⟨hbefore, hbehind⟩ := before_append hsep right
    rw [hbefore, hbehind]
    exact splitOnce_eq_some_iff.mpr ⟨rfl, hsep⟩
  · next hmem => exact splitOnce_eq_none_iff.mpr hmem

/-- Without a separator everything stands before it. -/
theorem getD_splitOnce (sep : Char) (cs : List Char) :
    (splitOnce sep cs).getD (cs, []) = (before sep cs, behind sep cs) := by
  rw [splitOnce_eq]
  split
  · rfl
  · next hmem =>
    obtain ⟨hbefore, hbehind⟩ := before_of_not_mem hmem
    rw [hbefore, hbehind]
    rfl

/-- No piece holds a separator. -/
theorem not_mem_of_mem_splitAll {sep : Char} {cs piece : List Char}
    (hpiece : piece ∈ splitAll sep cs) : sep ∉ piece := by
  induction cs generalizing piece with
  | nil =>
    obtain rfl := List.mem_singleton.mp hpiece
    exact List.not_mem_nil
  | cons c cs ih =>
    rw [splitAll] at hpiece
    split at hpiece
    · rcases List.mem_cons.mp hpiece with rfl | hpiece
      · exact List.not_mem_nil
      · exact ih hpiece
    · next hc =>
      have hne : sep ≠ c := fun heq => hc heq.symm
      split at hpiece
      · next hnone => exact absurd hnone (splitAll_ne_nil sep cs)
      · next first pieces hpieces =>
        rcases List.mem_cons.mp hpiece with rfl | hpiece
        · rw [List.mem_cons, not_or]
          exact ⟨hne, ih (hpieces ▸ List.mem_cons_self)⟩
        · exact ih (hpieces ▸ List.mem_cons_of_mem _ hpiece)

/-- The pieces are those of splitting a list at an element. -/
theorem splitAll_eq_splitOn (sep : Char) (cs : List Char) : splitAll sep cs = cs.splitOn sep := by
  have hpieces := List.splitOn_intercalate sep
    (fun piece (hpiece : piece ∈ splitAll sep cs) => not_mem_of_mem_splitAll hpiece)
    (splitAll_ne_nil sep cs)
  rw [← hpieces, intercalate_splitAll]

/-! ## Joining -/

/-- Joined pieces are the first one and the others behind their separators. -/
theorem intercalate_cons_eq (sep : Char) (piece : List Char) (pieces : List (List Char)) :
    [sep].intercalate (piece :: pieces) = piece ++ pieces.flatMap (sep :: ·) := by
  induction pieces generalizing piece with
  | nil => simp [List.intercalate_singleton]
  | cons next pieces ih =>
    rw [List.intercalate_cons_cons, ih, List.flatMap_cons]
    simp

/-- The characters of joined pieces are those of the pieces and the separator. -/
theorem eq_or_mem_of_mem_intercalate {sep c : Char} {pieces : List (List Char)}
    (hc : c ∈ [sep].intercalate pieces) : c = sep ∨ ∃ piece ∈ pieces, c ∈ piece := by
  cases pieces with
  | nil => cases hc
  | cons first pieces =>
    rw [intercalate_cons_eq, List.mem_append, List.mem_flatMap] at hc
    rcases hc with hfirst | ⟨piece, hpiece, hc⟩
    · exact .inr ⟨first, List.mem_cons_self, hfirst⟩
    · rcases List.mem_cons.mp hc with rfl | hc
      · exact .inl rfl
      · exact .inr ⟨piece, List.mem_cons_of_mem _ hpiece, hc⟩

/-- Empty pieces at the end are separators at the end. -/
theorem intercalate_append_replicate (sep : Char) {pieces : List (List Char)} (hne : pieces ≠ [])
    (count : Nat) :
    [sep].intercalate (pieces ++ List.replicate count []) =
      [sep].intercalate pieces ++ List.replicate count sep := by
  obtain ⟨piece, pieces, rfl⟩ := List.exists_cons_of_ne_nil hne
  have hempty : (List.replicate count []).flatMap (sep :: ·) = List.replicate count sep := by
    rw [List.flatMap_replicate, List.flatten_replicate_singleton]
  rw [List.cons_append, intercalate_cons_eq, intercalate_cons_eq, List.flatMap_append, hempty,
    List.append_assoc]

/-- Pieces that each end with a separator are found again, with nothing behind the last one. -/
theorem splitOn_ended {sep : Char} {pieces : List (List Char)}
    (hpieces : ∀ piece ∈ pieces, sep ∉ piece) :
    (pieces.flatMap (· ++ [sep])).splitOn sep = pieces ++ [[]] := by
  have hjoined : pieces.flatMap (· ++ [sep]) = [sep].intercalate (pieces ++ [[]]) := by
    clear hpieces
    induction pieces with
    | nil => rfl
    | cons piece pieces ih =>
      rw [List.cons_append, List.intercalate_cons_of_ne_nil (by simp), ← ih, List.flatMap_cons]
  rw [hjoined]
  refine List.splitOn_intercalate sep (fun piece hpiece => ?_) (by simp)
  rcases List.mem_append.mp hpiece with hpiece | hlast
  · exact hpieces piece hpiece
  · rw [List.mem_singleton.mp hlast]
    exact List.not_mem_nil

end HardSector.Text
