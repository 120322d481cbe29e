import HardSector.Proofs.Boot.Fetch
import HardSector.Proofs.Controller.Quiet
import HardSector.Proofs.Medium.Conserving
import HardSector.Session

/-!
# What a session puts into the drives

The entries of a configuration are loaded one after another, and an image that cannot be
opened leaves its drive as it is. So in the end each drive holds the image of the last entry
for it that could be opened. Nothing in the tree and nothing that the media share is changed
by this, even where a medium takes the place of another.
-/

namespace HardSector

open FileTree (Grown)

/-- An image in a file: its path and its bytes. -/
structure ImageFile where
  path : String
  bytes : Bytes
deriving DecidableEq, Repr

namespace Session

/-- The image of an entry, if it can be read. -/
def openable? (config : Config) (tree : FileTree) (entry : DriveEntry) : Option ImageFile :=
  match tree.read (config.imagePath entry) with
  | .ok bytes => some ⟨config.imagePath entry, bytes⟩
  | .error _ => none

/-- The image of the last of some entries that is for a drive and can be read. -/
def mounted? (config : Config) (tree : FileTree) (entries : List DriveEntry) (n : Nat) :
    Option ImageFile :=
  ((entries.filter fun entry => entry.drive == n).filterMap (openable? config tree)).getLast?

/-- One more entry changes the image of its own drive, if it can be read. -/
theorem mounted?_snoc (config : Config) (tree : FileTree) (entries : List DriveEntry)
    (entry : DriveEntry) (n : Nat) :
    mounted? config tree (entries ++ [entry]) n =
      if entry.drive = n then (openable? config tree entry).or (mounted? config tree entries n)
      else mounted? config tree entries n := by
  unfold mounted?
  rw [List.filter_append]
  by_cases hdrive : entry.drive = n
  · rw [if_pos hdrive, List.filter_singleton, beq_iff_eq.mpr hdrive, cond_true,
      List.filterMap_append, List.getLast?_append]
    cases hopen : openable? config tree entry <;> simp [hopen]
  · rw [if_neg hdrive, List.filter_singleton, beq_eq_false_iff_ne.mpr hdrive,
      cond_false, List.append_nil]

/-- An image is in a drive for which there is an entry whose image can be read. -/
theorem exists_mounted? {config : Config} {tree : FileTree} {entries : List DriveEntry}
    {entry : DriveEntry} {bytes : Bytes} (hentry : entry ∈ entries)
    (hread : tree.read (config.imagePath entry) = .ok bytes) :
    ∃ image, mounted? config tree entries entry.drive = some image := by
  have hopen : openable? config tree entry = some ⟨config.imagePath entry, bytes⟩ := by
    unfold openable?
    rw [hread]
  have hmem : (⟨config.imagePath entry, bytes⟩ : ImageFile) ∈
      (entries.filter fun other => other.drive == entry.drive).filterMap
        (openable? config tree) :=
    List.mem_filterMap.mpr ⟨entry, List.mem_filter.mpr ⟨hentry, beq_self_eq_true _⟩, hopen⟩
  exact ⟨_, List.getLast?_eq_some_getLast (List.ne_nil_of_mem hmem)⟩

section Presenting

variable {M R : Type} [Medium M R FileTree]

/-- How images are opened: as media that hold them in some way and never fail, on which they can be
seen as long as the tree and what the media share stay as they are, and that leave both as they are
when they are released. -/
structure Presents [Conserving M R] [Legible M R FileTree] (opening : Opening M) (shared : R)
    (describe : ImageFile → String) (Holds : M → ImageFile → FileTree → Prop) : Prop where
  opens : ∀ {tree path bytes}, tree.read path = .ok bytes →
    ∃ medium notices, opening tree path = (.ok medium, notices) ∧ Holds medium ⟨path, bytes⟩ tree
  refuses : ∀ {tree path cause}, tree.read path = .error cause →
    ∃ cause notices, opening tree path = (.error cause, notices)
  grown : ∀ {medium image before after}, Grown [] before after → Holds medium image before →
    Holds medium image after
  opened : ∀ {medium image tree}, Holds medium image tree → Conserving.Opened R medium tree
  release : ∀ {medium image} {site : Site R FileTree}, Holds medium image site.host →
    site.shared = shared → (Medium.release medium site).2.shared = shared
  shows : ∀ {medium image tree} (k : Fin diskSectors), Holds medium image tree →
    Legible.shows medium shared tree k = image.bytes.padded (k.val * sectorSize) sectorSize
  reliable : ∀ (medium : M) (tree : FileTree), Legible.Reliable medium shared tree
  describes : ∀ {medium image tree}, Holds medium image tree →
    Described.describe medium = describe image

/-- What is in a drive that nothing but loading was done to. -/
def Carries (Holds : M → ImageFile → FileTree → Prop) (tree : FileTree) (n : Nat)
    (drive : Drive M) : Option ImageFile → Prop
  | none => drive = { number := n }
  | some image => ∃ medium, drive = Drive.holding medium { number := n } ∧ Holds medium image tree

variable {config : Config} {opening : Opening M} {shared : R} {describe : ImageFile → String}
  {Holds : M → ImageFile → FileTree → Prop} {tree : FileTree} {done : List DriveEntry}
  {h : Hosted (Controller M R) FileTree}

/-- A controller after some entries were loaded. -/
structure Mounted (config : Config) (shared : R) (Holds : M → ImageFile → FileTree → Prop)
    (tree : FileTree) (done : List DriveEntry) (h : Hosted (Controller M R) FileTree) : Prop where
  grown : Grown [] tree h.host
  shared_eq : h.device.shared = shared
  used : Controller.Used FileTree h.device
  carries : ∀ n : Fin driveCount,
    Carries Holds h.host n (Controller.bay h n).drive (mounted? config tree done n)

/-- A drive that nothing but loading was done to has nothing to store, and its head is before sector
zero of track zero. -/
theorem Carries.at_start {n : Nat} {drive : Drive M} {image? : Option ImageFile}
    (hc : Carries Holds tree n drive image?) :
    drive.number = n ∧ drive.dirty = false ∧ drive.track = 0 ∧ drive.coming = 0 := by
  cases image? with
  | none =>
    have hdrive : drive = { number := n } := hc
    rw [hdrive]
    exact ⟨rfl, rfl, rfl, rfl⟩
  | some image =>
    obtain ⟨medium, hdrive, _⟩ := hc
    rw [hdrive]
    exact ⟨rfl, rfl, rfl, rfl⟩

namespace Mounted

/-- Nothing is in the drives of a new controller. -/
theorem empty (config : Config) (shared : R) (Holds : M → ImageFile → FileTree → Prop)
    (tree : FileTree) (base : UInt16) (notices : List Notice) :
    Mounted config shared Holds tree [] ⟨.ofShared shared base, tree, notices⟩ := by
  refine ⟨.refl _ _, rfl, .new _ _, fun n => ?_⟩
  change (Controller.bay _ n).drive = _
  simp [Controller.bay, Controller.ofShared]

/-- What is told to the operator does not matter. -/
theorem note (hm : Mounted config shared Holds tree done h) (notices : List Notice) :
    Mounted config shared Holds tree done (h.note notices) :=
  ⟨hm.grown, hm.shared_eq, hm.used, hm.carries⟩

/-- There is nothing to store. -/
theorem quiet (hm : Mounted config shared Holds tree done h) : Controller.Quiet shared h :=
  fun n => ⟨(hm.carries n).at_start.2.1, hm.shared_eq⟩

end Mounted

variable [Conserving M R] [Legible M R FileTree]

/-- A drive carries what it carried while nothing is added to the tree. -/
theorem Carries.grown (hp : Presents opening shared describe Holds) {tree' : FileTree} {n : Nat}
    {drive : Drive M} {image? : Option ImageFile} (hgrown : Grown [] tree tree')
    (hc : Carries Holds tree n drive image?) : Carries Holds tree' n drive image? := by
  cases image? with
  | none => exact hc
  | some image =>
    obtain ⟨medium, hdrive, hholds⟩ := hc
    exact ⟨medium, hdrive, hp.grown hgrown hholds⟩

/-- What a drive carries leaves it without a trace. -/
theorem Carries.vacate (hp : Presents opening shared describe Holds) {n : Nat}
    {bay : Bay M R FileTree} {image? : Option ImageFile}
    (hc : Carries Holds bay.site.host n bay.drive image?) (hshared : bay.site.shared = shared) :
    Grown [] bay.site.host bay.vacate.site.host ∧ bay.vacate.site.shared = shared := by
  unfold Bay.vacate
  cases image? with
  | none =>
    have hempty : bay.drive.medium = none := congrArg Drive.medium hc
    rw [hempty]
    exact ⟨.refl _ _, hshared⟩
  | some image =>
    obtain ⟨old, hdrive, hholds⟩ := hc
    have hold : bay.drive.medium = some old := congrArg Drive.medium hdrive
    rw [hold]
    exact ⟨Conserving.release (hp.opened hholds), hp.release hholds hshared⟩

/-- A medium that is put into a drive takes the place of what the drive carries. -/
theorem Carries.load (hp : Presents opening shared describe Holds) {n : Nat}
    {bay : Bay M R FileTree} {image? : Option ImageFile}
    (hc : Carries Holds bay.site.host n bay.drive image?) (hshared : bay.site.shared = shared)
    (medium : M) :
    (bay.load medium).drive = Drive.holding medium { number := n } ∧
      Grown [] bay.site.host (bay.load medium).site.host ∧
      (bay.load medium).site.shared = shared := by
  obtain ⟨hnumber, hclean, _⟩ := hc.at_start
  refine ⟨?_, ?_⟩
  · rw [Bay.drive_load, hnumber]
  · rw [Bay.load_eq, Bay.flush_of_clean hclean, Bay.site_update]
    exact hc.vacate hp hshared

/-- The medium in a drive is described as its image. -/
theorem Carries.describe_eq (hp : Presents opening shared describe Holds) {n : Nat}
    {drive : Drive M} {image? : Option ImageFile} (hc : Carries Holds tree n drive image?) :
    drive.medium.map Described.describe = image?.map describe := by
  cases image? with
  | none =>
    have hdrive : drive = { number := n } := hc
    rw [hdrive]
    rfl
  | some image =>
    obtain ⟨medium, hdrive, hholds⟩ := hc
    rw [hdrive]
    exact congrArg some (hp.describes hholds)

namespace Mounted

/-- An entry that has its image, or needs none, is loaded. -/
theorem loadDrive (hp : Presents opening shared describe Holds)
    (hm : Mounted config shared Holds tree done h) {entry : DriveEntry}
    (hdrive : entry.drive < driveCount)
    (hcreate : entry.create = true → tree.contains (config.imagePath entry) = true) :
    ∃ h', Session.loadDrive config opening entry h = .reported [] h' ∧
      Mounted config shared Holds tree (done ++ [entry]) h' := by
  have hprovide : provide h.host entry (config.imagePath entry) = .ok h.host := by
    unfold provide
    rw [hm.grown.contains_eq, if_neg]
    rw [Bool.and_eq_true, Bool.not_eq_true']
    rintro ⟨hwanted, hmissing⟩
    rw [hcreate hwanted] at hmissing
    cases hmissing
  have hread := hm.grown.read_eq (config.imagePath entry)
  unfold Session.loadDrive
  dsimp only
  rw [hprovide]
  dsimp only
  cases himage : tree.read (config.imagePath entry) with
  | error cause =>
    obtain ⟨cause', notices, hopen⟩ := hp.refuses (hread.trans himage)
    rw [hopen]
    refine ⟨_, rfl, hm.grown, hm.shared_eq, hm.used, fun n => ?_⟩
    have hnone : openable? config tree entry = none := by
      unfold openable?
      rw [himage]
    rw [mounted?_snoc, hnone, Option.none_or, ite_self]
    exact hm.carries n
  | ok bytes =>
    obtain ⟨medium, notices, hopen, hholds⟩ := hp.opens (hread.trans himage)
    rw [hopen]
    have hsome : openable? config tree entry = some ⟨config.imagePath entry, bytes⟩ := by
      unfold openable?
      rw [himage]
    have hnoted := hm.note notices
    obtain ⟨hheld, hgrown, hshared⟩ :=
      (hnoted.carries ⟨entry.drive, hdrive⟩).load hp hnoted.shared_eq medium
    have hload : Controller.load (h.note notices) entry.drive medium =
        (.ok (), Controller.onBay ⟨entry.drive, hdrive⟩ (fun bay => bay.load medium)
          (h.note notices)) := by
      unfold Controller.load
      rw [dif_pos hdrive]
      rfl
    have hused := hnoted.used.perform (.load entry.drive medium)
    rw [Controller.perform_load, dif_pos hdrive] at hused
    dsimp only
    rw [hload]
    refine ⟨_, rfl, hm.grown.trans hgrown, hshared, hused, fun n => ?_⟩
    rw [mounted?_snoc, hsome, Option.some_or]
    by_cases hn : n = ⟨entry.drive, hdrive⟩
    · subst hn
      rw [if_pos rfl, Controller.bay_onBay_self]
      exact ⟨medium, hheld, hp.grown hgrown hholds⟩
    · have hother : entry.drive ≠ n := fun heq => hn (Fin.ext heq.symm)
      rw [if_neg hother, Controller.drive_onBay_of_ne _ _ hn]
      exact (hnoted.carries n).grown hp hgrown

/-- Entries that have their images, or need none, are loaded in order. -/
theorem loadDrives (hp : Presents opening shared describe Holds)
    (hm : Mounted config shared Holds tree done h) {entries : List DriveEntry}
    (hentries : ∀ entry ∈ entries, entry.drive < driveCount ∧
      (entry.create = true → tree.contains (config.imagePath entry) = true)) :
    ∃ h', Session.loadDrives config opening entries h = .reported [] h' ∧
      Mounted config shared Holds tree (done ++ entries) h' := by
  induction entries generalizing h done with
  | nil =>
    rw [List.append_nil]
    exact ⟨h, rfl, hm⟩
  | cons entry entries ih =>
    obtain ⟨hdrive, hcreate⟩ := hentries entry List.mem_cons_self
    obtain ⟨between, hfirst, hnext⟩ := hm.loadDrive hp hdrive hcreate
    obtain ⟨h', hrest, hlast⟩ := ih hnext fun other hother =>
      hentries other (List.mem_cons_of_mem _ hother)
    rw [List.append_assoc] at hlast
    refine ⟨h', ?_, hlast⟩
    unfold Session.loadDrives
    rw [hfirst]
    change Progress.andThen ⟨[], .ok (), between⟩ _ = _
    unfold Progress.andThen
    dsimp only
    rw [hrest]
    rfl

/-- The entries of a configuration are loaded into a new controller. -/
theorem of_entries (hp : Presents opening shared describe Holds)
    (hentries : ∀ entry ∈ config.disk.drives, entry.drive < driveCount ∧
      (entry.create = true → tree.contains (config.imagePath entry) = true))
    (base : UInt16) (notices : List Notice) :
    ∃ h, Session.loadDrives config opening config.disk.drives
        ⟨.ofShared shared base, tree, notices⟩ = .reported [] h ∧
      Mounted config shared Holds tree config.disk.drives h := by
  have hloaded := (empty config shared Holds tree base notices).loadDrives hp hentries
  rw [List.nil_append] at hloaded
  exact hloaded

/-- The disks show the images. -/
theorem shown (hp : Presents opening shared describe Holds)
    (hm : Mounted config shared Holds tree done h) (n : Fin driveCount) (k : Fin diskSectors) :
    Controller.shown? h n k = (mounted? config tree done n).map fun image =>
      image.bytes.padded (k.val * sectorSize) sectorSize := by
  have hc := hm.carries n
  change (Controller.bay h n).drive.medium.map
    (fun medium => Legible.shows medium h.device.shared h.host k) = _
  rw [hm.shared_eq]
  cases himage : mounted? config tree done n with
  | none =>
    rw [himage] at hc
    have hdrive : (Controller.bay h n).drive = { number := n.val } := hc
    rw [hdrive]
    rfl
  | some image =>
    rw [himage] at hc
    obtain ⟨medium, hdrive, hholds⟩ := hc
    rw [hdrive]
    exact congrArg some (hp.shows k hholds)

/-- What is reported of the drives. -/
theorem reports (hp : Presents opening shared describe Holds)
    (hm : Mounted config shared Holds tree done h) :
    driveReports h.device = (List.range driveCount).map fun n =>
      .drive n ((mounted? config tree done n).map describe) := by
  have hreport (n : Fin driveCount) :
      Report.drive (Controller.bay h n).drive.number
          ((Controller.bay h n).drive.medium.map Described.describe) =
        .drive n ((mounted? config tree done n).map describe) := by
    rw [(hm.carries n).at_start.1, (hm.carries n).describe_eq hp]
  unfold driveReports
  refine List.ext_getElem (by simp) fun n hn _ => ?_
  rw [List.length_map, Vector.length_toList] at hn
  rw [List.getElem_map, List.getElem_map, List.getElem_range, Vector.getElem_toList]
  exact hreport ⟨n, hn⟩

end Mounted

end Presenting

/-! ## The two kinds of images -/

/-- The description of an image in a drive. -/
def describeImage (backend : Backend) (image : ImageFile) : String :=
  match backend with
  | .copyOnWrite => image.path ++ s!" (copy-on-write, {image.bytes.size} bytes)"
  | .inPlace => image.path ++ s!" ({image.bytes.size} bytes)"

/-- An image is opened as a medium without patches, which gives back nothing to the pool. -/
theorem presents_copyOnWrite (capacity : Nat) :
    Presents CopyOnWrite.ofFile (PatchPool.ofCapacity capacity) (describeImage .copyOnWrite)
      fun medium image _ => medium = { image := image.bytes, name := some image.path } where
  opens {tree path bytes} hread := by
    unfold CopyOnWrite.ofFile
    rw [hread]
    exact ⟨_, _, rfl, rfl⟩
  refuses {tree path cause} hread := by
    unfold CopyOnWrite.ofFile
    rw [hread]
    exact ⟨_, _, rfl⟩
  grown _ hholds := hholds
  opened _ := trivial
  release {medium image site} hholds hshared := by
    have hreleased (disk : CopyOnWrite) : (Medium.release disk site).2.shared =
        (site.shared.clear disk.patches).pool := rfl
    have hempty : medium.patches = .empty := by rw [hholds]
    rw [hreleased, hempty, hshared, PatchPool.clear_empty]
    rfl
  shows {medium image tree} k hholds := by
    subst hholds
    change (PatchPool.patch _ .empty _).getD _ = _
    rw [PatchPool.patch_empty]
    rfl
  reliable _ _ := trivial
  describes hholds := by
    subst hholds
    rfl

/-- An image is opened as its file. -/
theorem presents_inPlace :
    Presents InPlace.ofFile () (describeImage .inPlace) fun medium image tree =>
      ∃ location, medium =
          { handle := { location := location }
            length := image.bytes.size
            path := some image.path } ∧
        tree.get? location = some (.file image.bytes) where
  opens {tree path bytes} hread := by
    unfold FileTree.read at hread
    unfold InPlace.ofFile
    cases hfind : tree.findFile path with
    | error cause =>
      rw [hfind] at hread
      cases hread
    | ok found =>
      rw [hfind] at hread
      obtain ⟨location, bytes'⟩ := found
      obtain rfl : bytes' = bytes := Except.ok.inj hread
      exact ⟨_, _, rfl, location, rfl, FileTree.get?_of_findFile hfind⟩
  refuses {tree path cause} hread := by
    unfold FileTree.read at hread
    unfold InPlace.ofFile
    cases hfind : tree.findFile path with
    | error cause => exact ⟨_, _, rfl⟩
    | ok found =>
      rw [hfind] at hread
      cases hread
  grown hgrown hholds := by
    obtain ⟨location, hmedium, hfile⟩ := hholds
    exact ⟨location, hmedium, hgrown.kept hfile⟩
  opened hholds := by
    obtain ⟨location, rfl, hfile⟩ := hholds
    exact ⟨_, hfile⟩
  release _ _ := rfl
  shows {medium image tree} k hholds := by
    obtain ⟨location, rfl, hfile⟩ := hholds
    exact congrArg (Bytes.padded · _ _) (InPlace.contents_stream hfile)
  reliable medium tree := medium.handle.cooperative tree
  describes hholds := by
    obtain ⟨location, rfl, _⟩ := hholds
    rfl

/-! ## Loaded controllers -/

/-- The controller of a session that works in memory, once its drives are loaded. -/
def loadedCopyOnWrite (config : Config) (tree : FileTree) :
    Hosted (Controller CopyOnWrite PatchPool) FileTree :=
  (loadDrives config CopyOnWrite.ofFile config.disk.drives
    ⟨.ofPool config.disk.poolSize config.disk.base, tree,
      PatchPool.capacityNotices config.disk.poolSize⟩).state

/-- The controller of a session that works in place, once its drives are loaded. -/
def loadedInPlace (config : Config) (tree : FileTree) :
    Hosted (Controller (InPlace FileHandle) Unit) FileTree :=
  (loadDrives config InPlace.ofFile config.disk.drives
    ⟨.ofShared () config.disk.base, tree, []⟩).state

end Session

end HardSector
