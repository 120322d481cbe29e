import HardSector.Proofs.Session.Idle
import HardSector.Session

/-!
# What a session does to files

A session opens images for writing, and boots and reads sectors through a controller that
could write to them. Yet whatever the configuration, and however far the session comes,
every file that was there is left as it was, and the only new files are the blank images
that were asked for.
-/

namespace HardSector

open FileTree (Grown)

/-- What a step and the next one keep, both of them keep. -/
theorem Progress.andThen_induct {S : Type} {P : S → Prop} {first : Progress S}
    {next : S → Progress S} (hfirst : P first.state) (hnext : ∀ s, P s → P (next s).state) :
    P (first.andThen next).state := by
  obtain ⟨reports, outcome, state⟩ := first
  unfold andThen
  cases outcome with
  | error cause => exact hfirst
  | ok _ => exact hnext state hfirst

namespace Session

/-! ## Drives -/

/-- What is opened as a medium is open. -/
def Opens {M : Type} (R : Type) [Medium M R FileTree] [Conserving M R] (opening : Opening M) :
    Prop :=
  ∀ tree path medium notices, opening tree path = (.ok medium, notices) →
    Conserving.Opened R medium tree

/-- A blank image is made for an entry only if it asks for one. -/
theorem grown_provide {tree tree' : FileTree} {entry : DriveEntry} {path : String}
    {paths : List String} (hpath : entry.create = true → path ∈ paths)
    (hprovide : provide tree entry path = .ok tree') : Grown paths tree tree' := by
  unfold provide at hprovide
  split at hprovide
  · next hcreate =>
    obtain ⟨hcreate, _⟩ := Bool.and_eq_true_iff.mp hcreate
    refine (Blank.grown_create hprovide).mono fun named hnamed => ?_
    rw [List.mem_singleton.mp hnamed]
    exact hpath hcreate
  · cases hprovide
    exact .refl _ _

variable {M R : Type} [Medium M R FileTree] [Conserving M R] {config : Config}
  {opening : Opening M} {paths : List String} {tree : FileTree}
  {h : Hosted (Controller M R) FileTree}

/-- Putting an image into a drive leaves the controller idle. -/
theorem idle_loadDrive (hopening : Opens R opening) {entry : DriveEntry}
    (hpath : entry.create = true → config.imagePath entry ∈ paths)
    (hi : Controller.Idle paths tree h) :
    Controller.Idle paths tree (loadDrive config opening entry h).state := by
  unfold loadDrive
  dsimp only
  split
  · exact hi.congr rfl rfl
  · next made hprovide =>
    have hmade := hi.made (grown_provide hpath hprovide)
    split
    · exact hmade.congr rfl rfl
    · next medium notices hopen =>
      have hnoted : Controller.Idle paths tree (Hosted.note { h with host := made } notices) :=
        hmade.congr rfl rfl
      have hloaded := hnoted.load entry.drive (hopening made _ medium notices hopen)
      split
      · next heq =>
        rw [heq] at hloaded
        exact hloaded
      · next heq =>
        rw [heq] at hloaded
        exact hloaded

/-- Putting images into drives leaves the controller idle. -/
theorem idle_loadDrives (hopening : Opens R opening) {entries : List DriveEntry}
    (hpaths : ∀ entry ∈ entries, entry.create = true → config.imagePath entry ∈ paths)
    (hi : Controller.Idle paths tree h) :
    Controller.Idle paths tree (loadDrives config opening entries h).state := by
  induction entries generalizing h with
  | nil => exact hi
  | cons entry entries ih =>
    refine Progress.andThen_induct (idle_loadDrive hopening ?_ hi) fun h' hi' => ih ?_ hi'
    · exact hpaths entry List.mem_cons_self
    · exact fun other hother => hpaths other (List.mem_cons_of_mem _ hother)

/-! ## The bus -/

/-- The controller is as idle on the bus as it was. -/
theorem idle_assemble (config : Config) (hi : Controller.Idle paths tree h) :
    Bus.Idle paths tree (assemble config h) :=
  ⟨_, rfl, hi.congr rfl rfl⟩

variable {b : Hosted (Bus M R) FileTree}

/-- A boot leaves the controller idle, whether it succeeds or not. -/
theorem idle_boot (config : Config) (hi : Bus.Idle paths tree b) :
    Bus.Idle paths tree (boot config b).state := by
  unfold boot
  split
  · split
    · exact hi
    · next memory _ =>
      have hrun := hi.run memory
      split
      · next heq =>
        rw [heq] at hrun
        exact hrun
      · next heq =>
        rw [heq] at hrun
        exact hrun
  · exact hi

/-- Reading a sector leaves the controller idle, whether it succeeds or not. -/
theorem idle_dumpSector (config : Config) (hi : Bus.Idle paths tree b) :
    Bus.Idle paths tree (dumpSector config b).state := by
  unfold dumpSector
  split
  · exact hi
  · next address _ =>
    have hread := hi.readSector address.track address.sector
    split
    · next heq =>
      rw [heq] at hread
      exact hread
    · next heq =>
      rw [heq] at hread
      exact hread

/-- Working with a controller only makes the images that its entries ask for. -/
theorem grown_operate (hopening : Opens R opening) (summarize : R → List Report)
    (hpaths : ∀ entry ∈ config.disk.drives, entry.create = true →
      config.imagePath entry ∈ paths)
    (hi : Controller.Idle paths tree h) :
    Grown paths tree (operate config opening summarize h).tree := by
  have hloaded := idle_loadDrives hopening hpaths hi
  unfold operate
  split
  · next heq =>
    rw [heq] at hloaded
    exact hloaded.flushAll.grown
  · next loaded heq =>
    rw [heq] at hloaded
    have hdone := Progress.andThen_induct (idle_boot config (idle_assemble config hloaded))
      fun b' hi' => idle_dumpSector config hi'
    split
    next heq =>
      rw [heq] at hdone
      exact hdone.closeController.grown

/-! ## Whole sessions -/

/-- The paths at which a configuration asks for blank images. -/
def blankPaths (config : Config) : List String :=
  match config.machine.createBlank with
  | some path => [Path.resolve config.machine.baseDir path]
  | none => (config.disk.drives.filter DriveEntry.create).map config.imagePath

/-- A new controller is idle. -/
theorem idle_fresh (paths : List String) (tree : FileTree) (shared : R) (base : UInt16)
    (notices : List Notice) :
    Controller.Idle (M := M) paths tree ⟨.ofShared shared base, tree, notices⟩ := by
  intro n
  have hdrive : (Controller.bay (M := M) ⟨.ofShared shared base, tree, notices⟩ n).drive =
      { number := n.val } := by
    simp [Controller.bay, Controller.ofShared]
  refine ⟨.refl _ _, by rw [hdrive], fun medium hmedium => ?_⟩
  rw [hdrive] at hmedium
  cases hmedium

/-- A session only makes the images that are asked for. -/
theorem grown_run (config : Config) (tree : FileTree) :
    Grown (blankPaths config) tree (run config tree).tree := by
  unfold run blankPaths
  cases config.machine.createBlank with
  | some path =>
    dsimp only
    unfold createBlank
    dsimp only
    split
    · next hcreate => exact Blank.grown_create hcreate
    · exact .refl _ _
  | none =>
    have hpaths : ∀ entry ∈ config.disk.drives, entry.create = true →
        config.imagePath entry ∈
          (config.disk.drives.filter DriveEntry.create).map config.imagePath :=
      fun entry hentry hcreate =>
        List.mem_map_of_mem (List.mem_filter.mpr ⟨hentry, hcreate⟩)
    dsimp only
    cases config.disk.backend with
    | copyOnWrite =>
      have hopens : Opens PatchPool CopyOnWrite.ofFile := fun _ _ _ _ _ => trivial
      exact grown_operate hopens poolReports hpaths (idle_fresh _ _ _ _ _)
    | inPlace =>
      have hopens : Opens Unit InPlace.ofFile := fun _ _ _ _ hopen =>
        InPlace.opened_ofFile hopen
      exact grown_operate hopens _ hpaths (idle_fresh _ _ _ _ _)

/-- Sessions never alter an image. Whatever the configuration, its backend and the file tree, and
however far the session comes: what was in the tree is still there, every file with its bytes, and
what is new is a whole blank image, at a place where nothing was and to which the path of an image
leads that the configuration asks to be made. -/
theorem run_keeps_images (config : Config) (tree : FileTree) :
    let last := (run config tree).tree
    (∀ location entry, tree.get? location = some entry → last.get? location = some entry) ∧
    ∀ location entry, tree.get? location = none → last.get? location = some entry →
      entry = .file (Array.replicate 337568 0xE5) ∧
      ∃ path, tree.locate path = .ok location ∧ tree.contains path = false ∧
        match config.machine.createBlank with
        | some name => path = Path.resolve config.machine.baseDir name
        | none => ∃ entry ∈ config.disk.drives,
            entry.create = true ∧ path = config.imagePath entry := by
  intro last
  have hgrown := grown_run config tree
  refine ⟨fun location entry hentry => hgrown.kept hentry, fun location entry hnone hentry => ?_⟩
  obtain ⟨hblank, path, hpath, hcreatable⟩ := hgrown.made hnone hentry
  obtain ⟨_, hlocate, _⟩ := FileTree.creatable_eq_ok_iff.mp hcreatable
  refine ⟨hblank, path, hlocate, (FileTree.contains_eq_false_iff hcreatable).mpr hnone, ?_⟩
  unfold blankPaths at hpath
  cases hname : config.machine.createBlank with
  | some name =>
    rw [hname] at hpath
    exact List.mem_singleton.mp hpath
  | none =>
    rw [hname] at hpath
    obtain ⟨entry, hfiltered, hsame⟩ := List.mem_map.mp hpath
    obtain ⟨hmem, hcreate⟩ := List.mem_filter.mp hfiltered
    exact ⟨entry, hmem, hcreate, hsame.symm⟩

/-- A blank image is made beside a file, which is left as it is. -/
theorem run_keeps_images_beside_a_new_one :
    let config : Config := { machine := { createBlank := some "n" } }
    let tree : FileTree := { entries := [(["o"], .file #[1, 2, 3])] }
    let last := (run config tree).tree
    last.get? ["o"] = some (.file #[1, 2, 3]) ∧
      last.get? ["n"] = some (.file (Array.replicate 337568 0xE5)) := by
  intro config tree last
  have hcreatable : tree.creatable "./n" = .ok ["n"] := by decide +kernel
  have hcontains : tree.contains "./n" = false :=
    (FileTree.contains_eq_false_iff hcreatable).mpr rfl
  have hcreate : Blank.create tree "./n" = .ok (tree.put ["n"] (.file Blank.image)) := by
    unfold Blank.create FileTree.create
    rw [hcontains, hcreatable]
    rfl
  have hpath : Path.resolve "." "n" = "./n" := by decide +kernel
  have hlast : last = tree.put ["n"] (.file Blank.image) := by
    change (createBlank config tree "n").tree = _
    unfold createBlank
    dsimp only
    rw [show config.machine.baseDir = "." from rfl, hpath, hcreate]
  obtain ⟨hkept, hmade⟩ := run_keeps_images config tree
  have hnew : last.get? ["n"] = some (.file Blank.image) := by
    rw [hlast, FileTree.get?_put_self _ _ (by decide)]
  obtain ⟨hblank, _⟩ := hmade ["n"] _ rfl hnew
  refine ⟨hkept ["o"] _ rfl, ?_⟩
  rw [← hblank]
  exact hnew

end Session

end HardSector
