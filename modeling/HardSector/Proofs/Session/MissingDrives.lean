import HardSector.Proofs.Session.Images
import HardSector.Proofs.Session.Mounting

/-!
# Entries for drives that there are not

The number of a drive is looked at when a medium is put into it. So an entry for a drive that
there is not ends a session, but only if loading comes to it and its image can be opened. An
image that cannot be opened hides the number, and a blank image that is asked for is made
before.
-/

namespace HardSector

open FileTree (Grown)

/-- A controller is idle since any tree that has all that its host has. -/
theorem Controller.Idle.since {M R : Type} [Medium M R FileTree] [Conserving M R]
    {paths : List String} {tree same : FileTree} {h : Hosted (Controller M R) FileTree}
    (hi : Controller.Idle paths tree h) (hsame : Grown [] same h.host) :
    Controller.Idle [] same h :=
  fun n => ⟨hsame, (hi n).clean, (hi n).opened⟩

namespace Session

/-- The image of an entry is provided, or is not for some cause, in a tree to which nothing was
added as before. -/
theorem provide_grown {tree later : FileTree} (hg : Grown [] tree later) (entry : DriveEntry)
    (path : String) :
    (∀ cause, provide tree entry path = .error cause → provide later entry path = .error cause) ∧
      ∀ made, provide tree entry path = .ok made →
        ∃ made', provide later entry path = .ok made' ∧ Grown [] made made' := by
  unfold provide
  rw [hg.contains_eq]
  split
  · exact Blank.create_grown hg path
  · refine ⟨nofun, fun made hmade => ⟨_, rfl, ?_⟩⟩
    cases hmade
    exact hg

/-- Entries that loading goes past, and the tree before and after: their images are provided, and
where one can be read there is the drive. -/
inductive Passes (config : Config) : FileTree → List DriveEntry → FileTree → Prop
  | nil (tree : FileTree) : Passes config tree [] tree
  | cons {tree made last : FileTree} {entry : DriveEntry} {entries : List DriveEntry}
      (hmade : provide tree entry (config.imagePath entry) = .ok made)
      (hfits : entry.drive < driveCount ∨
        ∀ bytes, made.read (config.imagePath entry) ≠ .ok bytes)
      (hrest : Passes config made entries last) : Passes config tree (entry :: entries) last

/-- Loading comes to an entry for a drive that there is not, and its image can be read, in the end
in a tree with the images that were provided. -/
def Refuses (config : Config) (tree : FileTree) (refused : DriveEntry) (made : FileTree) : Prop :=
  driveCount ≤ refused.drive ∧ ∃ before after mid bytes,
    config.disk.drives = before ++ refused :: after ∧ Passes config tree before mid ∧
      provide mid refused (config.imagePath refused) = .ok made ∧
      made.read (config.imagePath refused) = .ok bytes

/-- Loading goes past all of some entries, or up to one whose image is not provided, or up to one
for a drive that there is not with an image that can be read. -/
theorem passes_or_stops (config : Config) (tree : FileTree) (entries : List DriveEntry) :
    (∃ last, Passes config tree entries last) ∨
      ∃ before entry after mid, entries = before ++ entry :: after ∧
        Passes config tree before mid ∧
        ((∃ cause, provide mid entry (config.imagePath entry) = .error cause) ∨
          driveCount ≤ entry.drive ∧ ∃ made bytes,
            provide mid entry (config.imagePath entry) = .ok made ∧
            made.read (config.imagePath entry) = .ok bytes) := by
  induction entries generalizing tree with
  | nil => exact Or.inl ⟨tree, .nil tree⟩
  | cons entry entries ih =>
    cases hmade : provide tree entry (config.imagePath entry) with
    | error cause =>
      exact Or.inr ⟨[], entry, entries, tree, rfl, .nil tree, Or.inl ⟨cause, hmade⟩⟩
    | ok made =>
      by_cases hfits : entry.drive < driveCount ∨
          ∀ bytes, made.read (config.imagePath entry) ≠ .ok bytes
      · rcases ih made with ⟨last, hrest⟩ | ⟨before, stop, after, mid, rfl, hrest, hstop⟩
        · exact Or.inl ⟨last, .cons hmade hfits hrest⟩
        · exact Or.inr ⟨entry :: before, stop, after, mid, rfl, .cons hmade hfits hrest, hstop⟩
      · push Not at hfits
        obtain ⟨hmissing, bytes, hread⟩ := hfits
        exact Or.inr ⟨[], entry, entries, tree, rfl, .nil tree,
          Or.inr ⟨hmissing, made, bytes, hmade, hread⟩⟩

/-- Whatever fails once the drives are loaded, it is not the loading. -/
theorem outcome_ne_loading {M R : Type} [Medium M R FileTree] (config : Config)
    (b : Hosted (Bus M R) FileTree) (cause : DiskError) :
    ((boot config b).andThen (dumpSector config)).outcome ≠ .error (.loading cause) := by
  have hboot : (boot config b).outcome ≠ .error (.loading cause) := by
    unfold boot
    split
    · split
      · exact nofun
      · split <;> exact nofun
    · exact nofun
  have hdump (b' : Hosted (Bus M R) FileTree) :
      (dumpSector config b').outcome ≠ .error (.loading cause) := by
    unfold dumpSector
    split
    · exact nofun
    · split <;> exact nofun
  unfold Progress.andThen
  split
  · next heq =>
    rw [heq] at hboot
    exact hboot
  · exact hdump _

section Loading

variable {M R : Type} [Medium M R FileTree] [Conserving M R] {config : Config}
  {opening : Opening M} {tree made : FileTree} {entry : DriveEntry}
  {h : Hosted (Controller M R) FileTree}

/-- How images are opened: exactly if they can be read, and what is opened is open. -/
structure Reads (R : Type) [Medium M R FileTree] [Conserving M R] (opening : Opening M) :
    Prop where
  opens : ∀ {tree path bytes}, tree.read path = .ok bytes →
    ∃ medium notices, opening tree path = (.ok medium, notices)
  refuses : ∀ {tree path}, (∀ bytes, tree.read path ≠ .ok bytes) →
    ∃ cause notices, opening tree path = (.error cause, notices)
  opened : Opens R opening

/-- Images that are presented by media are opened exactly if they can be read. -/
theorem Presents.reads [Legible M R FileTree] {shared : R} {describe : ImageFile → String}
    {Holds : M → ImageFile → FileTree → Prop} (hp : Presents opening shared describe Holds) :
    Reads R opening where
  opens hread := by
    obtain ⟨medium, notices, hopen, _⟩ := hp.opens hread
    exact ⟨medium, notices, hopen⟩
  refuses {tree path} hunread := by
    cases hread : tree.read path with
    | ok bytes => exact absurd hread (hunread bytes)
    | error cause => exact hp.refuses hread
  opened tree path medium notices hopen := by
    cases hread : tree.read path with
    | error cause =>
      obtain ⟨cause', notices', hrefused⟩ := hp.refuses hread
      rw [hopen] at hrefused
      cases hrefused
    | ok bytes =>
      obtain ⟨medium', notices', hopened, hholds⟩ := hp.opens hread
      rw [hopen] at hopened
      cases hopened
      exact hp.opened hholds

/-- An entry whose image is not provided ends the loading. -/
theorem loadDrive_of_unprovided {cause : Blank.Failure} (hi : Controller.Idle [] tree h)
    (hcause : provide tree entry (config.imagePath entry) = .error cause) :
    (loadDrive config opening entry h).outcome = .error (.creating entry.drive cause) := by
  have hprovide := (provide_grown hi.grown entry (config.imagePath entry)).1 cause hcause
  unfold loadDrive
  simp only [hprovide]

/-- Where the image of an entry is provided, a controller works on in the tree with it. -/
theorem exists_provided (hi : Controller.Idle [] tree h)
    (hmade : provide tree entry (config.imagePath entry) = .ok made) :
    ∃ made', provide h.host entry (config.imagePath entry) = .ok made' ∧
      Controller.Idle [] made { h with host := made' } := by
  obtain ⟨made', hprovide, hsame⟩ :=
    (provide_grown hi.grown entry (config.imagePath entry)).2 made hmade
  have hgrown : Grown [config.imagePath entry] h.host made' :=
    grown_provide (fun _ => List.mem_singleton_self _) hprovide
  have hhere : Controller.Idle [config.imagePath entry] h.host h :=
    fun n => ⟨.refl _ _, (hi n).clean, (hi n).opened⟩
  exact ⟨made', hprovide, (hhere.made hgrown).since hsame⟩

/-- An entry that has a drive or an image that cannot be read is passed. -/
theorem loadDrive_of_fits (hreads : Reads R opening) (hi : Controller.Idle [] tree h)
    (hmade : provide tree entry (config.imagePath entry) = .ok made)
    (hfits : entry.drive < driveCount ∨
      ∀ bytes, made.read (config.imagePath entry) ≠ .ok bytes) :
    ∃ h', loadDrive config opening entry h = .reported [] h' ∧ Controller.Idle [] made h' := by
  obtain ⟨made', hprovide, hmade'⟩ := exists_provided hi hmade
  have hsame : Grown [] made made' := hmade'.grown
  unfold loadDrive
  simp only [hprovide]
  cases hopen : opening made' (config.imagePath entry) with
  | mk result notices =>
    cases result with
    | error cause => exact ⟨_, rfl, hmade'.congr rfl rfl⟩
    | ok medium =>
      have hdrive : entry.drive < driveCount := by
        refine hfits.resolve_right fun hunread => ?_
        obtain ⟨cause, notices', hrefused⟩ :=
          hreads.refuses fun bytes => (hsame.read_eq _).trans_ne (hunread bytes)
        rw [hopen] at hrefused
        cases hrefused
      have hnoted : Controller.Idle [] made (Hosted.note { h with host := made' } notices) :=
        hmade'.congr rfl rfl
      have hloaded := hnoted.load entry.drive (hreads.opened made' _ medium notices hopen)
      obtain ⟨loaded, hload⟩ : ∃ loaded, Controller.load
          (Hosted.note { h with host := made' } notices) entry.drive medium = (.ok (), loaded) :=
        ⟨_, dif_pos hdrive⟩
      rw [hload] at hloaded
      dsimp only
      rw [hload]
      exact ⟨loaded, rfl, hloaded⟩

/-- An entry for a drive that there is not ends the loading if its image can be read. -/
theorem loadDrive_of_missing (hreads : Reads R opening) (hi : Controller.Idle [] tree h)
    (hmade : provide tree entry (config.imagePath entry) = .ok made)
    (hmissing : driveCount ≤ entry.drive) {bytes : Bytes}
    (hread : made.read (config.imagePath entry) = .ok bytes) :
    (loadDrive config opening entry h).outcome =
        .error (.loading (.invalidDrive entry.drive)) ∧
      Controller.Idle [] made (loadDrive config opening entry h).state := by
  obtain ⟨made', hprovide, hmade'⟩ := exists_provided hi hmade
  have hsame : Grown [] made made' := hmade'.grown
  obtain ⟨medium, notices, hopen⟩ := hreads.opens ((hsame.read_eq _).trans hread)
  unfold loadDrive
  simp only [hprovide, hopen]
  unfold Controller.load
  rw [dif_neg (Nat.not_lt.mpr hmissing)]
  exact ⟨rfl, hmade'.congr rfl rfl⟩

/-- Loading goes on with the other entries in the tree that the passed ones have left. -/
theorem Passes.loadDrives {entries : List DriveEntry} {last : FileTree}
    (hpasses : Passes config tree entries last) (hreads : Reads R opening)
    (hi : Controller.Idle [] tree h) :
    ∃ h', Controller.Idle [] last h' ∧ ∀ rest,
      loadDrives config opening (entries ++ rest) h = loadDrives config opening rest h' := by
  induction hpasses generalizing h with
  | nil tree => exact ⟨h, hi, fun _ => rfl⟩
  | cons hmade hfits hrest ih =>
    obtain ⟨between, hfirst, hbetween⟩ := loadDrive_of_fits hreads hi hmade hfits
    obtain ⟨h', hlast, hloads⟩ := ih hbetween
    refine ⟨h', hlast, fun rest => ?_⟩
    rw [List.cons_append, Session.loadDrives, hfirst, ← hloads rest]
    rfl

omit [Conserving M R] in
/-- A session ends at an entry that cannot be loaded. -/
theorem operate_of_stop {before after : List DriveEntry} {cause : SessionError}
    {h' : Hosted (Controller M R) FileTree} (summarize : R → List Report)
    (hdrives : config.disk.drives = before ++ entry :: after)
    (hloads : ∀ rest, loadDrives config opening (before ++ rest) h =
      loadDrives config opening rest h')
    (hstop : (loadDrive config opening entry h').outcome = .error cause) :
    (operate config opening summarize h).outcome = .error cause ∧
      (operate config opening summarize h).tree =
        (Controller.flushAll (loadDrive config opening entry h').state).host := by
  have hloaded : loadDrives config opening config.disk.drives h =
      ⟨(loadDrive config opening entry h').reports, .error cause,
        (loadDrive config opening entry h').state⟩ := by
    rw [hdrives, hloads, loadDrives]
    unfold Progress.andThen
    split
    · next heq =>
      rw [heq] at hstop ⊢
      exact congrArg (Progress.mk _ · _) hstop
    · next heq =>
      rw [heq] at hstop
      cases hstop
  unfold operate
  rw [hloaded]
  exact ⟨rfl, rfl⟩

/-- A session goes on with a controller when all entries are passed. -/
theorem operate_of_passes (hreads : Reads R opening) (summarize : R → List Report)
    (hi : Controller.Idle [] tree h) {last : FileTree}
    (hpasses : Passes config tree config.disk.drives last) :
    ∃ h' : Hosted (Controller M R) FileTree, (operate config opening summarize h).outcome =
      ((boot config (assemble config h')).andThen (dumpSector config)).outcome := by
  obtain ⟨h', _, hloads⟩ := hpasses.loadDrives hreads hi
  have hloaded : loadDrives config opening config.disk.drives h = .reported [] h' := by
    have hall := hloads []
    rwa [List.append_nil] at hall
  refine ⟨h', ?_⟩
  unfold operate
  rw [hloaded]
  rfl

/-- A session with a controller ends for the number of a drive exactly if an entry is refused, and
then it leaves the tree in which the entry was refused. -/
theorem operate_refuses (hreads : Reads R opening) (summarize : R → List Report)
    (hi : Controller.Idle [] tree h) :
    let last := operate config opening summarize h
    (∀ refused made, Refuses config tree refused made →
      last.outcome = .error (.loading (.invalidDrive refused.drive)) ∧ Grown [] made last.tree) ∧
    ∀ cause, last.outcome = .error (.loading cause) →
      ∃ refused made, Refuses config tree refused made := by
  refine ⟨fun refused made hrefuses => ?_, fun cause hcause => ?_⟩
  · obtain ⟨hmissing, before, after, mid, bytes, hdrives, hpasses, hmade, hread⟩ := hrefuses
    obtain ⟨h', hmid, hloads⟩ := hpasses.loadDrives hreads hi
    obtain ⟨hstop, hidle⟩ := loadDrive_of_missing hreads hmid hmade hmissing hread
    obtain ⟨houtcome, htree⟩ := operate_of_stop summarize hdrives hloads hstop
    refine ⟨houtcome, ?_⟩
    rw [htree]
    exact hidle.flushAll.grown
  · rcases passes_or_stops config tree config.disk.drives with
      ⟨last, hpasses⟩ | ⟨before, entry, after, mid, hdrives, hpasses, hstop⟩
    · obtain ⟨h', hgoes⟩ := operate_of_passes hreads summarize hi hpasses
      exact absurd (hgoes.symm.trans hcause) (outcome_ne_loading config _ cause)
    · obtain ⟨h', hmid, hloads⟩ := hpasses.loadDrives hreads hi
      rcases hstop with ⟨failure, hfailure⟩ | ⟨hmissing, made, bytes, hmade, hread⟩
      · have hfirst : (loadDrive config opening entry h').outcome =
            .error (.creating entry.drive failure) := loadDrive_of_unprovided hmid hfailure
        rw [(operate_of_stop summarize hdrives hloads hfirst).1] at hcause
        cases hcause
      · exact ⟨entry, made, hmissing, before, after, mid, bytes, hdrives, hpasses, hmade, hread⟩

end Loading

/-- A session that makes no blank image ends for the number of a drive exactly if an entry is
refused, and then it leaves the tree in which the entry was refused. -/
theorem run_refuses (config : Config) (hblank : config.machine.createBlank = none)
    (tree : FileTree) :
    let last := run config tree
    (∀ refused made, Refuses config tree refused made →
      last.outcome = .error (.loading (.invalidDrive refused.drive)) ∧ Grown [] made last.tree) ∧
    ∀ cause, last.outcome = .error (.loading cause) →
      ∃ refused made, Refuses config tree refused made := by
  unfold run
  rw [hblank]
  dsimp only
  cases config.disk.backend with
  | copyOnWrite =>
    exact operate_refuses (presents_copyOnWrite config.disk.poolSize).reads poolReports
      (idle_fresh _ _ _ _ _)
  | inPlace =>
    exact operate_refuses presents_inPlace.reads (fun _ => []) (idle_fresh _ _ _ _ _)

/-- A session that goes past all entries and has nothing else to do succeeds, whatever the numbers
of the drives. -/
theorem run_of_passes {config : Config} {tree last : FileTree}
    (hblank : config.machine.createBlank = none) (hboot : config.machine.boot = false)
    (hdump : config.machine.dumpSector = none)
    (hpasses : Passes config tree config.disk.drives last) :
    (run config tree).outcome = .ok () := by
  have hrest {M R : Type} [Medium M R FileTree] (h : Hosted (Controller M R) FileTree) :
      ((boot config (assemble config h)).andThen (dumpSector config)).outcome = .ok () := by
    unfold boot dumpSector
    rw [hboot, hdump]
    rfl
  unfold run
  rw [hblank]
  dsimp only
  cases config.disk.backend with
  | copyOnWrite =>
    obtain ⟨h', hgoes⟩ := operate_of_passes (presents_copyOnWrite config.disk.poolSize).reads
      poolReports (idle_fresh _ _ _ config.disk.base _) hpasses
    exact hgoes.trans (hrest h')
  | inPlace =>
    obtain ⟨h', hgoes⟩ := operate_of_passes presents_inPlace.reads (fun _ => [])
      (idle_fresh _ _ _ config.disk.base _) hpasses
    exact hgoes.trans (hrest h')

/-- An entry for a drive that there is not is refused without a trace exactly if loading comes to
such an entry with an image that can be read, and no file has been made by then where the path of
the entry leads. For any configuration that asks for no blank image, for both kinds of media and for
any file tree, that is when the session ends for the number of a drive and the path of the entry
names nothing that it did not name before. -/
theorem missing_drive_refused_iff (config : Config)
    (hblank : config.machine.createBlank = none) (tree : FileTree) (entry : DriveEntry) :
    let last := run config tree
    let path := config.imagePath entry
    (∃ n, 4 ≤ n ∧ last.outcome = .error (.loading (.invalidDrive n))) ∧
        (last.tree.contains path = true → tree.contains path = true) ↔
      ∃ refused made, Refuses config tree refused made ∧
        (made.contains path = true → tree.contains path = true) := by
  intro last path
  obtain ⟨hends, hrefused⟩ := run_refuses config hblank tree
  constructor
  · rintro ⟨⟨n, _, houtcome⟩, hclean⟩
    obtain ⟨refused, made, hrefuses⟩ := hrefused _ houtcome
    refine ⟨refused, made, hrefuses, ?_⟩
    rw [← (hends refused made hrefuses).2.contains_eq]
    exact hclean
  · rintro ⟨refused, made, hrefuses, hclean⟩
    obtain ⟨houtcome, hgrown⟩ := hends refused made hrefuses
    refine ⟨⟨refused.drive, hrefuses.1, houtcome⟩, ?_⟩
    rw [hgrown.contains_eq]
    exact hclean

/-- An entry for drive 4 with an image is refused, and nothing is made. -/
theorem missing_drive_refused_with_image :
    let config : Config := { disk := { listed := some [⟨4, "a", true⟩] } }
    let tree : FileTree := { entries := [(["a"], .file #[1])] }
    let last := run config tree
    config.disk.validate = .ok () ∧ config.machine.createBlank = none ∧
      (∃ n, 4 ≤ n ∧ last.outcome = .error (.loading (.invalidDrive n))) ∧
      (last.tree.contains "./a" = true → tree.contains "./a" = true) := by
  intro config tree last
  have hpath : config.imagePath ⟨4, "a", true⟩ = "./a" := by decide +kernel
  have hdrives : config.disk.drives = [] ++ ⟨4, "a", true⟩ :: [] :=
    List.mergeSort_of_pairwise (by decide)
  have hcontains : tree.contains "./a" = true := by decide +kernel
  have hprovide : provide tree ⟨4, "a", true⟩ (config.imagePath ⟨4, "a", true⟩) = .ok tree := by
    unfold provide
    rw [hpath, hcontains]
    rfl
  have hread : tree.read (config.imagePath ⟨4, "a", true⟩) = .ok #[1] := by
    rw [hpath]
    decide +kernel
  have hrefuses : Refuses config tree ⟨4, "a", true⟩ tree :=
    ⟨Nat.le_refl 4, [], [], tree, _, hdrives, .nil tree, hprovide, hread⟩
  have hiff := missing_drive_refused_iff config rfl tree ⟨4, "a", true⟩
  rw [hpath] at hiff
  exact ⟨by decide, rfl, hiff.mpr ⟨_, tree, hrefuses, id⟩⟩

/-- An entry for drive 4 whose image is missing is not refused, and one that asks for a blank image
is refused when that has been made. -/
theorem missing_drive_passed_or_made :
    let passed : Config := { disk := { listed := some [⟨4, "a", false⟩] } }
    let asking : Config := { disk := { listed := some [⟨4, "a", true⟩] } }
    passed.disk.validate = .ok () ∧ (run passed {}).outcome = .ok () ∧
      asking.disk.validate = .ok () ∧ (run asking {}).outcome = .error (.loading (.invalidDrive 4)) ∧
      asking.imagePath ⟨4, "a", true⟩ = "./a" ∧
      ({} : FileTree).contains "./a" = false ∧ (run asking {}).tree.contains "./a" = true := by
  intro passed asking
  have hpassed : passed.disk.drives = [⟨4, "a", false⟩] :=
    List.mergeSort_of_pairwise (by decide)
  have hasking : asking.disk.drives = [] ++ ⟨4, "a", true⟩ :: [] :=
    List.mergeSort_of_pairwise (by decide)
  have hpath : passed.imagePath ⟨4, "a", false⟩ = "./a" := by decide +kernel
  have hpath' : asking.imagePath ⟨4, "a", true⟩ = "./a" := by decide +kernel
  have hmissing : ({} : FileTree).read "./a" = .error .notFound := by decide +kernel
  have hpasses : Passes passed {} passed.disk.drives {} := by
    rw [hpassed]
    refine .cons rfl (Or.inr fun bytes hread => ?_) (.nil _)
    rw [hpath, hmissing] at hread
    cases hread
  have hcontains : ({} : FileTree).contains "./a" = false := by decide +kernel
  have hcreatable : ({} : FileTree).creatable "./a" = .ok ["a"] := by decide +kernel
  let made := ({} : FileTree).put ["a"] (.file Blank.image)
  have hprovide : provide {} ⟨4, "a", true⟩ "./a" = .ok made := by
    unfold provide Blank.create FileTree.create
    rw [hcontains, hcreatable]
    rfl
  -- The blank image is too long to be looked at, so this is said of any file.
  have hfind (image : Bytes) : (({} : FileTree).put ["a"] (.file image)).find "./a" =
      .ok (["a"], .file image) := by
    have hnames : Path.names "./a" = [".", "a"] := by decide
    unfold FileTree.find FileTree.locate FileTree.follow
    rw [hnames, if_neg (by decide +kernel), if_neg (by decide +kernel),
      if_neg (by decide +kernel), if_neg (by decide +kernel)]
    exact if_neg (by decide +kernel : FileTree.demandsDirectory "./a" ≠ true)
  have hmade (image : Bytes) : (({} : FileTree).put ["a"] (.file image)).read "./a" = .ok image ∧
      (({} : FileTree).put ["a"] (.file image)).contains "./a" = true := by
    unfold FileTree.read FileTree.findFile FileTree.contains
    rw [hfind]
    exact ⟨rfl, rfl⟩
  have hrefuses : Refuses asking {} ⟨4, "a", true⟩ made := by
    refine ⟨Nat.le_refl 4, [], [], {}, Blank.image, hasking, .nil _, ?_, ?_⟩
    · rw [hpath']
      exact hprovide
    · rw [hpath']
      exact (hmade Blank.image).1
  obtain ⟨houtcome, hgrown⟩ := (run_refuses asking rfl {}).1 _ _ hrefuses
  refine ⟨by decide, run_of_passes rfl rfl rfl hpasses, by decide, houtcome, hpath', hcontains,
    ?_⟩
  rw [hgrown.contains_eq]
  exact (hmade Blank.image).2

end Session

end HardSector
