import HardSector.Config
import HardSector.Proofs.Config.MountText

/-!
# The drives of a configuration

A mount request takes the place of all entries for its drive, and of several requests for one
drive the last one counts. The entries are loaded in order of their drives, and those for one
drive stay in the order in which they are listed.
-/

namespace HardSector

namespace DiskSettings

/-! ## Sorting -/

/-- The order of entries by their drives is transitive. -/
theorem drive_le_trans (a b c : DriveEntry) (hab : decide (a.drive ≤ b.drive) = true)
    (hbc : decide (b.drive ≤ c.drive) = true) : decide (a.drive ≤ c.drive) = true := by
  simp only [decide_eq_true_eq] at *
  omega

/-- The order of entries by their drives is total. -/
theorem drive_le_total (a b : DriveEntry) :
    (decide (a.drive ≤ b.drive) || decide (b.drive ≤ a.drive)) = true := by
  simp only [Bool.or_eq_true, decide_eq_true_eq]
  omega

/-- Sorted entries are in order of their drives. -/
theorem pairwise_mergeSort_drive (entries : List DriveEntry) :
    (entries.mergeSort fun a b => decide (a.drive ≤ b.drive)).Pairwise
      fun a b => a.drive ≤ b.drive :=
  (List.pairwise_mergeSort drive_le_trans drive_le_total entries).imp of_decide_eq_true

/-- Sorting by drives leaves the entries for one drive in their order. -/
theorem filter_mergeSort_drive (entries : List DriveEntry) (drive : Nat) :
    (entries.mergeSort fun a b => decide (a.drive ≤ b.drive)).filter (·.drive == drive) =
      entries.filter (·.drive == drive) := by
  -- The entries for one drive are in order already, so they are found in the sorted list, and
  -- there are no more of them there.
  have hordered : (entries.filter (·.drive == drive)).Pairwise
      fun a b => decide (a.drive ≤ b.drive) = true := by
    rw [List.pairwise_filter]
    refine List.pairwise_of_forall fun a b ha hb => ?_
    rw [beq_iff_eq] at ha hb
    exact decide_eq_true (Nat.le_of_eq (ha.trans hb.symm))
  have hsublist :=
    List.sublist_mergeSort drive_le_trans drive_le_total hordered List.filter_sublist
  have hfiltered := hsublist.filter (·.drive == drive)
  rw [List.filter_filter] at hfiltered
  simp only [Bool.and_self] at hfiltered
  have hlength := ((List.mergeSort_perm entries fun a b => decide (a.drive ≤ b.drive)).filter
    (·.drive == drive)).length_eq
  exact (hfiltered.eq_of_length hlength.symm).symm

/-! ## Replacing entries -/

/-- An entry that is set is the only one for its drive and leaves those for others. -/
theorem filter_setDrive (disk : DiskSettings) (entry : DriveEntry) (drive : Nat) :
    ((disk.setDrive entry).listed.getD []).filter (·.drive == drive) =
      if entry.drive = drive then [entry]
      else (disk.listed.getD []).filter (·.drive == drive) := by
  unfold setDrive
  rw [Option.getD_some, List.filter_append, List.filter_filter]
  by_cases hdrive : entry.drive = drive
  · subst hdrive
    have hothers : ((disk.listed.getD []).filter fun other =>
        other.drive == entry.drive && other.drive != entry.drive) = [] := by
      simp
    rw [hothers, if_pos rfl]
    simp
  · have hothers : (fun other : DriveEntry => other.drive == drive && other.drive != entry.drive) =
        (·.drive == drive) := by
      funext other
      by_cases hother : other.drive = drive
      · have hne : drive ≠ entry.drive := fun heq => hdrive heq.symm
        simp [hother, hne]
      · simp [hother]
    rw [hothers, if_neg hdrive]
    simp [hdrive]

/-- Of the entries that are set for a drive the last one stays, and where none is set the listed
ones stay. -/
theorem filter_foldl_setDrive (disk : DiskSettings) (entries : List DriveEntry) (drive : Nat) :
    ((entries.foldl setDrive disk).listed.getD []).filter (·.drive == drive) =
      match entries.findRev? (·.drive == drive) with
      | some entry => [entry]
      | none => (disk.listed.getD []).filter (·.drive == drive) := by
  induction entries using List.reverseRecOn with
  | nil => rfl
  | append_singleton entries entry ih =>
    rw [List.foldl_append, List.foldl_cons, List.foldl_nil, filter_setDrive, ih, findRev?_concat]
    by_cases hdrive : entry.drive = drive
    · simp [hdrive]
    · simp [hdrive]

/-- Nothing is listed after entries were set exactly if nothing was listed and none was set. -/
theorem listed_foldl_setDrive_eq_nil_iff (disk : DiskSettings) (entries : List DriveEntry) :
    (entries.foldl setDrive disk).listed.getD [] = [] ↔
      disk.listed.getD [] = [] ∧ entries = [] := by
  induction entries using List.reverseRecOn with
  | nil => simp
  | append_singleton entries entry ih =>
    rw [List.foldl_append]
    simp [setDrive]

/-- The entries to load are those that are listed, or the usual ones if none is listed. -/
theorem drives_eq (disk : DiskSettings) :
    disk.drives =
      (if disk.listed.getD [] = [] then defaultDrives else disk.listed.getD []).mergeSort
        fun a b => decide (a.drive ≤ b.drive) := by
  unfold drives
  cases disk.listed with
  | none => rfl
  | some entries => cases entries <;> rfl

/-- The usual entries are in order. -/
theorem mergeSort_defaultDrives :
    (defaultDrives.mergeSort fun a b => decide (a.drive ≤ b.drive)) = defaultDrives :=
  List.mergeSort_of_pairwise (by decide)

end DiskSettings

namespace Config

/-- The entry that is asked for last for a drive is that of the last request for it. -/
theorem findRev?_entryOfMount (mounts : List Mount) (drive : Nat) :
    (mounts.map entryOfMount).findRev? (·.drive == drive) =
      (mounts.findRev? (·.drive == drive)).map entryOfMount :=
  findRev?_map entryOfMount _ mounts

/-- With arguments laid over a configuration, the entries to load are in order of their drives. If
the file lists none and no mount is requested, they are the usual ones. Otherwise a drive for
which mounts are requested has exactly one entry, that of the last request, and any other
drive has the entries that the file lists for it, in their order. -/
theorem drives_overlay (config : Config) (args : Arguments) :
    let listed := config.disk.listed.getD []
    let drives := (config.overlay args).disk.drives
    drives.Pairwise (fun a b => a.drive ≤ b.drive) ∧
    (listed = [] ∧ args.mounts = [] →
      drives = [⟨0, "Disks/cpm63k.dsk", false⟩, ⟨1, "Disks/bdsc-v1.60.dsk", false⟩,
        ⟨2, "Disks/escape-posix.dsk", false⟩, ⟨3, "Disks/blank.dsk", false⟩]) ∧
    (¬(listed = [] ∧ args.mounts = []) → ∀ drive, drives.filter (·.drive == drive) =
      match args.mounts.findRev? (·.drive == drive) with
      | some mount => [⟨drive, mount.path, mount.flag "create"⟩]
      | none => listed.filter (·.drive == drive)) := by
  intro listed drives
  have hdrives : drives = _ := DiskSettings.drives_eq _
  have hempty : (config.overlay args).disk.listed.getD [] = [] ↔
      listed = [] ∧ args.mounts = [] := by
    refine (DiskSettings.listed_foldl_setDrive_eq_nil_iff _ _).trans ?_
    rw [List.map_eq_nil_iff]
  refine ⟨?_, fun hnone => ?_, fun hsome drive => ?_⟩
  · rw [hdrives]
    exact DiskSettings.pairwise_mergeSort_drive _
  · rw [hdrives, if_pos (hempty.mpr hnone)]
    exact DiskSettings.mergeSort_defaultDrives
  · rw [hdrives, if_neg (mt hempty.mp hsome), DiskSettings.filter_mergeSort_drive]
    refine (DiskSettings.filter_foldl_setDrive _ _ drive).trans ?_
    rw [findRev?_entryOfMount]
    cases hlast : args.mounts.findRev? (·.drive == drive) with
    | none => rfl
    | some mount =>
      rw [List.findRev?_eq_find?_reverse] at hlast
      have hdrive : mount.drive = drive := by simpa using List.find?_some hlast
      rw [Option.map_some, entryOfMount, hdrive]

/-- Of two requests for drive 2 the later one counts, and it takes the place of the listed image;
both images that are listed for drive 1 stay. -/
theorem drives_overlay_of_repeated_mounts :
    let listed : List DriveEntry := [⟨2, "a.dsk", true⟩, ⟨1, "b.dsk", false⟩, ⟨1, "c.dsk", true⟩]
    let config : Config := { disk := { listed := some listed } }
    let options := Mount.optionMap [("create", "true")]
    let args : Arguments :=
      { mounts := [⟨.floppy, 2, "d.dsk", ∅⟩, ⟨.floppy, 2, "e.dsk", options⟩] }
    let drives := (config.overlay args).disk.drives
    ¬(config.disk.listed.getD [] = [] ∧ args.mounts = []) ∧
      drives.filter (·.drive == 1) = [⟨1, "b.dsk", false⟩, ⟨1, "c.dsk", true⟩] ∧
      drives.filter (·.drive == 2) = [⟨2, "e.dsk", true⟩] ∧ drives.filter (·.drive == 0) = [] := by
  intro listed config options args drives
  have hsome : ¬(config.disk.listed.getD [] = [] ∧ args.mounts = []) := by simp [args]
  obtain ⟨_, _, hdrives⟩ := drives_overlay config args
  refine ⟨hsome, (hdrives hsome 1).trans (by decide), (hdrives hsome 2).trans ?_,
    (hdrives hsome 0).trans (by decide)⟩
  decide +kernel

end Config

end HardSector
