import HardSector.Medium.Blank
import Mathlib.Tactic.SplitIfs

/-!
# File trees that only grow

A blank image is made only where nothing is. So after any number of blank images a tree
holds all that it held before, and every path that can be followed was one that could be
followed at the start, and led to the same place.
-/

namespace HardSector

namespace FileTree

/-- Between two trees blank images were made: all that was there is still there, and what is new is
a blank image at a location where nothing was and to which one of the paths leads. -/
structure Grown (paths : List String) (before after : FileTree) : Prop where
  workingDirectory : after.workingDirectory = before.workingDirectory
  kept : ∀ {location entry}, before.get? location = some entry →
    after.get? location = some entry
  made : ∀ {location entry}, before.get? location = none → after.get? location = some entry →
    entry = .file Blank.image ∧ ∃ path ∈ paths, before.creatable path = .ok location

variable {paths : List String} {tree before after last : FileTree} {location : Location}

namespace Grown

/-- Nothing was made in a tree that is the same. -/
theorem refl (paths : List String) (tree : FileTree) : Grown paths tree tree := by
  refine ⟨rfl, fun hentry => hentry, fun hnone hentry => ?_⟩
  rw [hnone] at hentry
  cases hentry

/-- More paths may be named. -/
theorem mono {paths' : List String} (hg : Grown paths before after)
    (hpaths : ∀ path ∈ paths, path ∈ paths') : Grown paths' before after := by
  refine ⟨hg.workingDirectory, hg.kept, fun hnone hentry => ?_⟩
  obtain ⟨hblank, path, hpath, hcreatable⟩ := hg.made hnone hentry
  exact ⟨hblank, path, hpaths path hpath, hcreatable⟩

/-- What made nothing made nothing but what may be made. -/
theorem of_nil (hg : Grown [] before after) : Grown paths before after :=
  hg.mono fun _ hpath => absurd hpath List.not_mem_nil

/-! ## Paths through a grown tree -/

/-- No directory is new. -/
theorem directory (hg : Grown paths before after)
    (hafter : after.get? location = some .directory) :
    before.get? location = some .directory := by
  cases hbefore : before.get? location with
  | none =>
    obtain ⟨hblank, _⟩ := hg.made hbefore hafter
    cases hblank
  | some entry =>
    rw [hg.kept hbefore] at hafter
    exact hafter

/-- Names that can be followed could be followed before. -/
theorem walk (hg : Grown paths before after) {here : Location} {names : List String}
    (hwalk : after.walk here names = .ok location) : before.walk here names = .ok location := by
  induction names generalizing here with
  | nil => exact hwalk
  | cons name names ih =>
    unfold FileTree.walk at hwalk ⊢
    -- Only a directory can be left, and no directory is new.
    cases hhere : after.get? here with
    | none => simp only [hhere, reduceCtorEq] at hwalk
    | some entry =>
      cases entry with
      | file bytes => simp only [hhere, reduceCtorEq] at hwalk
      | directory =>
        simp only [hhere] at hwalk
        simp only [hg.directory hhere]
        split_ifs at hwalk ⊢
        · exact ih hwalk
        · exact ih hwalk
        · exact ih hwalk

/-- A path that leads somewhere led there before. -/
theorem locate (hg : Grown paths before after) {path : String}
    (hlocate : after.locate path = .ok location) : before.locate path = .ok location := by
  unfold FileTree.locate follow at hlocate ⊢
  rw [hg.workingDirectory] at hlocate
  split_ifs at hlocate ⊢
  · exact hg.walk hlocate
  · exact hg.walk hlocate

end Grown

/-- A file can be created where a path leads, unless the path can only name a directory or there is
one. -/
theorem creatable_eq_ok_iff {path : String} :
    tree.creatable path = .ok location ↔
      demandsDirectory path = false ∧ tree.locate path = .ok location ∧
        tree.get? location ≠ some .directory := by
  unfold creatable
  cases hdirectory : demandsDirectory path with
  | true => cases tree.parent path <;> simp
  | false =>
    cases hlocate : tree.locate path with
    | error cause => simp
    | ok here =>
      simp only [Bool.false_eq_true, if_false, Bool.false_or, decide_eq_true_eq, true_and,
        Except.ok.injEq]
      split_ifs with hhere
      · constructor
        · intro herror
          cases herror
        · rintro ⟨rfl, hne⟩
          exact absurd hhere hne
      · constructor
        · intro hok
          obtain rfl := Except.ok.inj hok
          exact ⟨rfl, hhere⟩
        · rintro ⟨rfl, _⟩
          rfl

/-- Where a file can be created now, it could be created before. -/
theorem Grown.creatable (hg : Grown paths before after) {path : String}
    (hcreatable : after.creatable path = .ok location) :
    before.creatable path = .ok location := by
  obtain ⟨hname, hlocate, hfree⟩ := creatable_eq_ok_iff.mp hcreatable
  refine creatable_eq_ok_iff.mpr ⟨hname, hg.locate hlocate, fun hdirectory => ?_⟩
  exact hfree (hg.kept hdirectory)

/-- What was made first and what was made later. -/
theorem Grown.trans (hfirst : Grown paths before after) (hlater : Grown paths after last) :
    Grown paths before last := by
  refine ⟨hlater.workingDirectory.trans hfirst.workingDirectory,
    fun hentry => hlater.kept (hfirst.kept hentry), fun {location entry} hnone hentry => ?_⟩
  cases hbetween : after.get? location with
  | none =>
    obtain ⟨hblank, path, hpath, hcreatable⟩ := hlater.made hbetween hentry
    exact ⟨hblank, path, hpath, hfirst.creatable hcreatable⟩
  | some between =>
    have hsame := hlater.kept hbetween
    rw [hentry] at hsame
    obtain rfl := Option.some.inj hsame
    exact hfirst.made hnone hbetween

/-! ## Trees that grow -/

/-- A path that names nothing, although a file can be created there, leads where nothing is. -/
theorem contains_eq_false_iff {path : String} (hcreatable : tree.creatable path = .ok location) :
    tree.contains path = false ↔ tree.get? location = none := by
  obtain ⟨hname, hlocate, hfree⟩ := creatable_eq_ok_iff.mp hcreatable
  unfold contains find
  rw [hlocate]
  cases hentry : tree.get? location with
  | none => simp [hentry]
  | some entry =>
    cases entry with
    | directory => exact absurd hentry hfree
    | file bytes => simp [hentry, hname]

/-- The root is not free. -/
theorem ne_nil_of_free (hfree : tree.get? location = none) : location ≠ [] := by
  rintro rfl
  cases hfree

/-- Writing the bytes that a file has makes nothing. -/
theorem grown_write {bytes : Bytes} (hfile : tree.get? location = some (.file bytes)) :
    Grown paths tree (tree.write location bytes) := by
  have hroot : location ≠ [] := by
    rintro rfl
    cases hfile
  have hsame (other : Location) : (tree.write location bytes).get? other = tree.get? other := by
    unfold write
    by_cases heq : other = location
    · rw [heq, get?_put_self _ _ hroot, hfile]
    · rw [get?_put_of_ne _ _ heq]
  refine ⟨rfl, fun hentry => (hsame _).trans hentry, fun hnone hentry => ?_⟩
  rw [hsame, hnone] at hentry
  cases hentry

/-! ## Trees to which nothing was added -/

section Same

variable (hg : Grown [] before after)

include hg

/-- Every location holds what it held. -/
theorem Grown.get?_eq (location : Location) : after.get? location = before.get? location := by
  cases hbefore : before.get? location with
  | some entry => exact hg.kept hbefore
  | none =>
    cases hafter : after.get? location with
    | none => rfl
    | some entry =>
      obtain ⟨_, path, hpath, _⟩ := hg.made hbefore hafter
      exact absurd hpath List.not_mem_nil

/-- Names lead where they led. -/
theorem Grown.walk_eq (here : Location) (names : List String) :
    after.walk here names = before.walk here names := by
  induction names generalizing here with
  | nil => rfl
  | cons name names ih =>
    unfold FileTree.walk
    simp only [hg.get?_eq, ih]

/-- A path finds what it found. -/
theorem Grown.find_eq (path : String) : after.find path = before.find path := by
  unfold find FileTree.locate follow
  simp only [hg.workingDirectory, hg.walk_eq, hg.get?_eq]

/-- A file can be created where it could be created, and nowhere else. -/
theorem Grown.creatable_eq (path : String) : after.creatable path = before.creatable path := by
  unfold FileTree.creatable FileTree.locate parent follow
  simp only [hg.workingDirectory, hg.walk_eq, hg.get?_eq]

/-- The same entry is put at a location. -/
theorem Grown.put (location : Location) (entry : Entry) :
    Grown [] (before.put location entry) (after.put location entry) := by
  have hsame (other : Location) :
      (after.put location entry).get? other = (before.put location entry).get? other := by
    by_cases hroot : other = []
    · subst hroot
      rfl
    · by_cases heq : other = location
      · subst heq
        rw [get?_put_self _ _ hroot, get?_put_self _ _ hroot]
      · rw [get?_put_of_ne _ _ heq, get?_put_of_ne _ _ heq, hg.get?_eq]
  refine ⟨hg.workingDirectory, fun hentry => (hsame _).trans hentry, fun hnone hentry => ?_⟩
  rw [hsame, hnone] at hentry
  cases hentry

/-- A path names something if it did. -/
theorem Grown.contains_eq (path : String) : after.contains path = before.contains path := by
  unfold contains
  rw [hg.find_eq]

/-- A path finds the file that it found. -/
theorem Grown.findFile_eq (path : String) : after.findFile path = before.findFile path := by
  unfold findFile
  rw [hg.find_eq]

/-- A path reads as it read. -/
theorem Grown.read_eq (path : String) : after.read path = before.read path := by
  unfold read
  rw [hg.findFile_eq]

end Same

end FileTree

/-- A blank image is made where nothing is. -/
theorem Blank.grown_create {tree tree' : FileTree} {path : String}
    (hcreate : Blank.create tree path = .ok tree') : FileTree.Grown [path] tree tree' := by
  unfold Blank.create FileTree.create at hcreate
  split at hcreate
  · cases hcreate
  · next hcontains =>
    cases hcreatable : tree.creatable path with
    | error cause =>
      rw [hcreatable] at hcreate
      cases hcreate
    | ok location =>
      rw [hcreatable] at hcreate
      cases hcreate
      have hfree := (FileTree.contains_eq_false_iff hcreatable).mp (Bool.eq_false_iff.mpr hcontains)
      refine ⟨rfl, fun {other entry} hentry => ?_, fun {other entry} hnone hentry => ?_⟩
      · rw [FileTree.get?_put_of_ne, hentry]
        rintro rfl
        rw [hfree] at hentry
        cases hentry
      · by_cases heq : other = location
        · subst heq
          rw [FileTree.get?_put_self _ _ (FileTree.ne_nil_of_free hfree)] at hentry
          exact ⟨(Option.some.inj hentry).symm, path, List.mem_singleton_self path, hcreatable⟩
        · rw [FileTree.get?_put_of_ne _ _ heq, hnone] at hentry
          cases hentry

/-- A blank image is made, or is not made for some cause, in a tree to which nothing was added as
before. -/
theorem Blank.create_grown {tree later : FileTree} (hg : FileTree.Grown [] tree later)
    (path : String) :
    (∀ cause, create tree path = .error cause → create later path = .error cause) ∧
      ∀ made, create tree path = .ok made →
        ∃ made', create later path = .ok made' ∧ FileTree.Grown [] made made' := by
  unfold create FileTree.create
  rw [hg.contains_eq, hg.creatable_eq]
  split
  · exact ⟨fun _ => id, nofun⟩
  · cases tree.creatable path with
    | error cause => exact ⟨fun _ => id, nofun⟩
    | ok location =>
      refine ⟨nofun, fun made hmade => ⟨_, rfl, ?_⟩⟩
      cases hmade
      exact hg.put location _

end HardSector
