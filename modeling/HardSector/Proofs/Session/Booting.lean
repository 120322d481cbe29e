import HardSector.Proofs.Session.Assembly
import HardSector.Proofs.Session.Mounting

/-!
# Sessions that succeed

A session with a valid configuration and an image for drive 0 boots from that image and
reads sectors of it, whatever else is in the drives and wherever the registers lie. The
reading of a sector does not depend on whether there was a boot before, which leaves the head
and the disk elsewhere.
-/

namespace HardSector

/-- A window that was written at the start of a string of bytes is there. -/
theorem Bytes.extract_splice_zero (bytes window : Bytes) :
    (bytes.splice 0 window).extract 0 window.size = window := by
  unfold splice zeros
  simp

namespace LoaderRom

/-- The loader fits at the end of a memory of 64 kilobytes. -/
theorem load_eq_ok {blank : Bytes} (hsize : blank.size = 65536) :
    ∃ memory, load blank address = .ok memory ∧ memory.size = 65536 := by
  have hfits : address.toNat + code.size ≤ blank.size := by
    rw [hsize]
    decide
  have hload : load blank address = .ok (blank.splice address.toNat code) := by
    unfold load
    rw [if_pos hfits]
  exact ⟨_, hload, (size_of_load hload).trans hsize⟩

end LoaderRom

namespace Session

/-- What is reported of a boot from an image. -/
def bootReports (config : Config) (image : ImageFile) : List Report :=
  if config.machine.boot then [.booted ⟨0, 137, 0⟩ (image.bytes.padded 0 137).toArray] else []

/-- What is reported of the sector of an image that a configuration asks for. -/
def sectorReports (config : Config) (image : ImageFile) : List Report :=
  match config.machine.dumpSector with
  | none => []
  | some address =>
    [.sector address (image.bytes.padded
      (address.track.toNat * 4384 + address.sector.toNat * 137) 137).toArray]

section Serving

variable {M R : Type} [Medium M R FileTree] [Legible M R FileTree]

/-- A controller on the bus of a session: it is wired to the bus, nothing was written, and its disks
show images. -/
structure Serves (r : Boot.Registers) (images : Fin driveCount → Option ImageFile) (shared : R)
    (b : Hosted (Bus M R) FileTree) (c : Hosted (Controller M R) FileTree) : Prop where
  wired : Bus.Wired r b c
  used : Controller.Used FileTree c.device
  quiet : Controller.Quiet shared c
  shown : ∀ n k, Controller.shown? c n k = (images n).map fun image =>
    image.bytes.padded (k.val * sectorSize) sectorSize

variable {r : Boot.Registers} {images : Fin driveCount → Option ImageFile} {shared : R}
  {b : Hosted (Bus M R) FileTree} {c : Hosted (Controller M R) FileTree}
  {config : Config} {image : ImageFile}

namespace Serves

/-- There is a disk in a drive that shows an image. -/
theorem loaded (hs : Serves r images shared b c) (himage : images 0 = some image) :
    (Controller.bay c 0).drive.isLoaded = true := by
  have hsome : (Controller.shown? c 0 0).isSome = true := by
    rw [hs.shown, himage]
    rfl
  rw [← hsome]
  exact Option.isSome_map.symm

/-- The bytes that a disk shows are those of its image. -/
theorem eq_padded (hs : Serves r images shared b c) (himage : images 0 = some image)
    {k : Fin diskSectors} {bytes : Sector}
    (hbytes : Controller.shown? (Controller.onBay 0 Bay.flush c) 0 k = some bytes) :
    bytes = image.bytes.padded (k.val * sectorSize) sectorSize := by
  rw [hs.quiet.onBay_flush, hs.shown, himage] at hbytes
  exact (Option.some.inj hbytes).symm

/-- A boot, or the reading of a sector, that ends alike on the bus and on the controller and changes
nothing that is shown, leaves the bus as it was. -/
theorem step (hs : Serves r images shared b c) {b' : Hosted (Bus M R) FileTree}
    {c' : Hosted (Controller M R) FileTree} (hwired : Bus.Wired r b' c')
    (hkept : Controller.Located r c'.device ∧ Controller.Used FileTree c'.device ∧
      Controller.Quiet shared c')
    (hshown : ∀ n k,
      Controller.shown? c' n k = Controller.shown? (Controller.onBay 0 Bay.flush c) n k) :
    Serves r images shared b' c' := by
  refine ⟨hwired, hkept.2.1, hkept.2.2, fun n k => ?_⟩
  rw [hshown, hs.quiet.onBay_flush, hs.shown]

/-- What is reported of the installed controller once it has gone. -/
theorem summary_eq (hs : Serves r images shared b c) (summarize : R → List Report) :
    summary summarize (Bus.closeController b).device = summarize shared := by
  have hhosted := Bus.hosted?_closeController hs.wired.hosted
  obtain ⟨hcontroller, _, _⟩ := Bus.hosted?_eq_some_iff.mp hhosted
  unfold summary
  rw [hcontroller]
  exact congrArg summarize hs.quiet.flushAll.shared_eq

variable [Unsharing M R FileTree]

/-- A session boots, if it is asked to, from the first sector of drive 0. -/
theorem boot (hs : Serves r images shared b c) (config : Config) (himage : images 0 = some image)
    (hstart : (Controller.bay c 0).drive.track = 0 ∧ (Controller.bay c 0).drive.coming = 0)
    (hreliable : Controller.ReliableAt c 0) :
    ∃ b' c', Session.boot config b = .reported (bootReports config image) b' ∧
      Serves r images shared b' c' := by
  unfold Session.boot bootReports
  cases config.machine.boot with
  | false => exact ⟨b, c, rfl, hs⟩
  | true =>
    have hzeros : (Bytes.zeros memorySize).size = 65536 := Array.size_replicate
    obtain ⟨memory, hmemory, hsize⟩ := LoaderRom.load_eq_ok hzeros
    have hroom : sectorSize ≤ memory.size := by
      rw [hsize]
      decide
    obtain ⟨bytes, c', hbytes, hload, hshown⟩ := Controller.load_sector hs.wired.located
      (hs.used.sound c.host c.notices) (hs.used.honest c.host c.notices) (hs.loaded himage)
      hreliable memory
    have hkept := (Controller.Quiet.spares shared r).load memory
      ⟨hs.wired.located, hs.used, hs.quiet⟩
    obtain ⟨houtcome, hwired⟩ := Boot.run_eq hs.wired hroom
    rw [hload] at hkept houtcome hwired
    obtain rfl := hs.eq_padded himage hbytes
    rw [hstart.1, hstart.2] at houtcome
    rw [if_pos rfl, hmemory]
    dsimp only
    generalize Boot.run memory b = booted at houtcome hwired ⊢
    obtain ⟨outcome, b'⟩ := booted
    obtain rfl := houtcome
    refine ⟨b', c', ?_, hs.step hwired hkept hshown⟩
    have hwindow := Bytes.extract_splice_zero memory (image.bytes.padded 0 sectorSize).toArray
    rw [Vector.size_toArray] at hwindow
    exact congrArg (fun bytes => Progress.reported [Report.booted ⟨0, 137, 0⟩ bytes] b') hwindow

/-- A session reads the sector that it is asked for from drive 0. -/
theorem dumpSector (hs : Serves r images shared b c) (config : Config)
    (himage : images 0 = some image) (hreliable : Controller.ReliableAt c 0)
    (hinside : ∀ address, config.machine.dumpSector = some address →
      Geometry.eightInch.contains address.track.toNat address.sector.toNat = true) :
    ∃ b' c', Session.dumpSector config b = .reported (sectorReports config image) b' ∧
      Serves r images shared b' c' := by
  unfold Session.dumpSector sectorReports
  cases hdump : config.machine.dumpSector with
  | none => exact ⟨b, c, rfl, hs⟩
  | some address =>
    obtain ⟨htrack, hsector⟩ := Bool.and_eq_true_iff.mp (hinside address hdump)
    obtain ⟨bytes, c', hbytes, hfetch, hshown⟩ := Controller.fetch_sector hs.wired.located
      (hs.used.sound c.host c.notices) (hs.used.honest c.host c.notices) (hs.loaded himage)
      hreliable (of_decide_eq_true htrack) (of_decide_eq_true hsector)
    have hkept := (Controller.Quiet.spares shared r).fetch address.track address.sector
      ⟨hs.wired.located, hs.used, hs.quiet⟩
    obtain ⟨houtcome, hwired⟩ := Boot.readSector_eq hs.wired address.track address.sector
    rw [hfetch] at hkept houtcome hwired
    obtain rfl := hs.eq_padded himage hbytes
    rw [Geometry.place_mul (Nat.le_of_lt_succ (of_decide_eq_true htrack))
      (of_decide_eq_true hsector)] at houtcome
    dsimp only
    generalize Boot.readSector address.track address.sector b = read at houtcome hwired ⊢
    obtain ⟨outcome, b'⟩ := read
    obtain rfl := houtcome
    exact ⟨b', c', rfl, hs.step hwired hkept hshown⟩

end Serves

variable [Conserving M R] {opening : Opening M} {describe : ImageFile → String}
  {Holds : M → ImageFile → FileTree → Prop} {tree : FileTree}

/-- A bus with a controller whose drives were loaded serves their images. -/
theorem Mounted.serves (hp : Presents opening shared describe Holds) {done : List DriveEntry}
    {h : Hosted (Controller M R) FileTree} (hm : Mounted config shared Holds tree done h)
    (hvalid : config.disk.validate = .ok ()) :
    ∃ r c, Serves r (fun n => mounted? config tree done n) shared (assemble config h) c ∧
      (Controller.bay c 0).drive.track = 0 ∧ (Controller.bay c 0).drive.coming = 0 := by
  obtain ⟨r, hwired⟩ := wired_assemble hvalid h
  refine ⟨r, _, ⟨hwired, hm.used.moved _, fun n => ?_, fun n k => hm.shown hp n k⟩, ?_⟩
  · exact ⟨(hm.quiet n).clean, hm.shared_eq⟩
  · exact (hm.carries 0).at_start.2.2

variable [Unsharing M R FileTree]

/-- A session with well placed registers, whose entries have their images or need none, does what it
is asked for if there is an image for drive 0. -/
theorem operate_succeeds (hp : Presents opening shared describe Holds)
    (hvalid : config.disk.validate = .ok ())
    (hentries : ∀ entry ∈ config.disk.drives, entry.drive < driveCount ∧
      (entry.create = true → tree.contains (config.imagePath entry) = true))
    (himage : mounted? config tree config.disk.drives 0 = some image)
    (hinside : ∀ address, config.machine.dumpSector = some address →
      Geometry.eightInch.contains address.track.toNat address.sector.toNat = true)
    (summarize : R → List Report) (base : UInt16) (notices : List Notice) :
    let last := operate config opening summarize ⟨.ofShared shared base, tree, notices⟩
    last.outcome = .ok () ∧
      last.reports =
        (List.range driveCount).map (fun n =>
          .drive n ((mounted? config tree config.disk.drives n).map describe)) ++
        bootReports config image ++ sectorReports config image ++ summarize shared := by
  obtain ⟨h, hloads, hm⟩ := Mounted.of_entries hp hentries base notices
  obtain ⟨r, c, hserves, hstart⟩ := hm.serves hp hvalid
  have hreliable {b : Hosted (Bus M R) FileTree} {c : Hosted (Controller M R) FileTree}
      (hs : Serves r (fun n => mounted? config tree config.disk.drives n) shared b c) :
      Controller.ReliableAt c 0 := by
    intro medium _
    rw [hs.quiet.shared_eq]
    exact hp.reliable medium c.host
  obtain ⟨b', c', hboot, hbooted⟩ := hserves.boot config himage hstart (hreliable hserves)
  obtain ⟨b'', c'', hdump, hdumped⟩ := hbooted.dumpSector config himage (hreliable hbooted) hinside
  have hlater : (boot config (assemble config h)).andThen (dumpSector config) =
      .reported (bootReports config image ++ sectorReports config image) b'' := by
    rw [hboot]
    unfold Progress.andThen Progress.reported
    dsimp only
    rw [hdump]
    rfl
  have hended : operate config opening summarize ⟨.ofShared shared base, tree, notices⟩ =
      ⟨driveReports h.device ++ (bootReports config image ++ sectorReports config image) ++
          summary summarize (Bus.closeController b'').device, .ok (),
        (Bus.closeController b'').notices, (Bus.closeController b'').host⟩ := by
    unfold operate
    rw [hloads]
    dsimp only [Progress.reported]
    rw [hlater]
    rfl
  intro last
  change (operate config opening summarize _).outcome = _ ∧
    (operate config opening summarize _).reports = _
  rw [hended, hm.reports hp, hdumped.summary_eq, ← List.append_assoc]
  exact ⟨rfl, rfl⟩

end Serving

/-- Copy-on-write sessions put the images into the drives as they are. -/
theorem medium_loadedCopyOnWrite {config : Config} {tree : FileTree}
    (hentries : ∀ entry ∈ config.disk.drives, entry.drive < driveCount ∧
      (entry.create = true → tree.contains (config.imagePath entry) = true))
    (n : Fin driveCount) :
    (Controller.bay (loadedCopyOnWrite config tree) n).drive.medium =
      (mounted? config tree config.disk.drives n).map fun image =>
        { image := image.bytes, name := some image.path } := by
  obtain ⟨h, hloads, hm⟩ := Mounted.of_entries (presents_copyOnWrite config.disk.poolSize) hentries
    config.disk.base (PatchPool.capacityNotices config.disk.poolSize)
  obtain rfl : loadedCopyOnWrite config tree = h := congrArg Progress.state hloads
  have hc := hm.carries n
  cases himage : mounted? config tree config.disk.drives n with
  | none =>
    rw [himage] at hc
    exact congrArg Drive.medium hc
  | some image =>
    rw [himage] at hc
    obtain ⟨medium, hdrive, rfl⟩ := hc
    exact congrArg Drive.medium hdrive

/-- Sessions in place put the files of the images into the drives. -/
theorem medium_loadedInPlace {config : Config} {tree : FileTree}
    (hentries : ∀ entry ∈ config.disk.drives, entry.drive < driveCount ∧
      (entry.create = true → tree.contains (config.imagePath entry) = true))
    (n : Fin driveCount) :
    let h := loadedInPlace config tree
    ((Controller.bay h n).drive.medium.map fun disk => (disk.path, (disk.stream h.host).contents)) =
      (mounted? config tree config.disk.drives n).map fun image =>
        (some image.path, image.bytes) := by
  obtain ⟨h, hloads, hm⟩ := Mounted.of_entries presents_inPlace hentries config.disk.base []
  obtain rfl : loadedInPlace config tree = h := congrArg Progress.state hloads
  have hc := hm.carries n
  dsimp only
  cases himage : mounted? config tree config.disk.drives n with
  | none =>
    rw [himage] at hc
    have hdrive : (Controller.bay (loadedInPlace config tree) n).drive = { number := n.val } := hc
    rw [hdrive]
    rfl
  | some image =>
    rw [himage] at hc
    obtain ⟨medium, hdrive, location, rfl, hfile⟩ := hc
    rw [hdrive]
    exact congrArg (fun bytes => some (some image.path, bytes)) (InPlace.contents_stream hfile)

/-- An accepted configuration boots and reads the right bytes. Take any configuration that is valid,
as all are that `Config.readWith` accepts from any parser, does not ask for a blank image, has its
drives numbered below four, and whose entries have their images or need none, with an image for
drive 0 that can be read; and let the sector that it asks for, if any, be on the disk. Then the
session succeeds. Each drive holds the image of the last entry for it that can be read, or none. A
boot takes the first sector of drive 0, and the sector that was asked for is read from there whether
there was a boot before or not; both are the bytes of the image, with zeros past its end. No slot of
the patch pool is in use, and no write was dropped. -/
theorem run_boots_and_reads (config : Config) (tree : FileTree) :
    config.disk.validate = .ok () → config.machine.createBlank = none →
    (∀ entry ∈ config.disk.drives, entry.drive < 4 ∧
      (entry.create = true → tree.contains (config.imagePath entry) = true)) →
    (∃ entry ∈ config.disk.drives, entry.drive = 0 ∧
      ∃ bytes, tree.read (config.imagePath entry) = .ok bytes) →
    (∀ address, config.machine.dumpSector = some address →
      Geometry.eightInch.contains address.track.toNat address.sector.toNat = true) →
    let images := mounted? config tree config.disk.drives
    let last := run config tree
    ∃ image, images 0 = some image ∧ last.outcome = .ok () ∧
      last.reports =
        (List.range 4).map (fun n =>
          .drive n ((images n).map (describeImage config.disk.backend))) ++
        bootReports config image ++ sectorReports config image ++
        (match config.disk.backend with
          | .copyOnWrite => [.poolUse 0 (min config.disk.poolSize 65535) 0]
          | .inPlace => []) ∧
      (∀ n : Fin 4, (Controller.bay (loadedCopyOnWrite config tree) n).drive.medium =
        (images n).map fun image => { image := image.bytes, name := some image.path }) ∧
      ∀ n : Fin 4,
        ((Controller.bay (loadedInPlace config tree) n).drive.medium.map fun disk =>
          (disk.path, (disk.stream (loadedInPlace config tree).host).contents)) =
        (images n).map fun image => (some image.path, image.bytes) := by
  intro hvalid hblank hentries hzero hinside images last
  obtain ⟨entry, hentry, hdrive, bytes, hbytes⟩ := hzero
  obtain ⟨image, himage⟩ := exists_mounted? hentry hbytes
  rw [hdrive] at himage
  refine ⟨image, himage, ?_⟩
  rw [← and_assoc]
  refine ⟨?_, medium_loadedCopyOnWrite hentries, medium_loadedInPlace hentries⟩
  cases hbackend : config.disk.backend with
  | copyOnWrite =>
    have hrun : last = runCopyOnWrite config tree := by
      simp only [last, run, hblank, hbackend]
    have hpool : poolReports (.ofCapacity config.disk.poolSize) =
        [.poolUse 0 (min config.disk.poolSize 65535) 0] := by
      unfold poolReports
      rw [PatchPool.capacity_ofCapacity]
      rfl
    rw [hrun, ← hpool]
    exact operate_succeeds (presents_copyOnWrite config.disk.poolSize) hvalid hentries himage
      hinside poolReports config.disk.base _
  | inPlace =>
    have hrun : last = runInPlace config tree := by
      simp only [last, run, hblank, hbackend]
    rw [hrun]
    exact operate_succeeds presents_inPlace hvalid hentries himage hinside (fun _ => [])
      config.disk.base _

/-- Of three entries for drive 0 the last has no image, and the one before it gives the disk. -/
theorem run_boots_from_the_last_image :
    let config : Config :=
      { machine := { boot := true, dumpSector := some ⟨0, 1⟩ }
        disk := { listed := some [⟨0, "a", false⟩, ⟨0, "b", false⟩, ⟨0, "c", false⟩] } }
    let tree : FileTree := { entries := [(["a"], .file #[9]), (["b"], .file #[1, 2, 3])] }
    config.disk.validate = .ok () ∧ (run config tree).outcome = .ok () ∧
      (run config tree).reports =
        [.drive 0 (some "./b (copy-on-write, 3 bytes)"), .drive 1 none, .drive 2 none,
          .drive 3 none, .booted ⟨0, 137, 0⟩ (Bytes.padded #[1, 2, 3] 0 137).toArray,
          .sector ⟨0, 1⟩ (Bytes.padded #[1, 2, 3] 137 137).toArray, .poolUse 0 256 0] := by
  intro config tree
  have hvalid : config.disk.validate = .ok () := by decide
  have hdrives : config.disk.drives = [⟨0, "a", false⟩, ⟨0, "b", false⟩, ⟨0, "c", false⟩] :=
    List.mergeSort_of_pairwise (by decide)
  have hopenable : config.disk.drives.map (openable? config tree) =
      [some ⟨"./a", #[9]⟩, some ⟨"./b", #[1, 2, 3]⟩, none] := by
    rw [hdrives]
    decide +kernel
  have hmounted : mounted? config tree config.disk.drives 0 = some ⟨"./b", #[1, 2, 3]⟩ := by
    simp only [hdrives, List.map_cons, List.map_nil, List.cons.injEq] at hopenable
    obtain ⟨ha, hb, hc, -⟩ := hopenable
    simp [mounted?, hdrives, ha, hb, hc]
  have hempty (n : Nat) (hn : n ≠ 0) : mounted? config tree config.disk.drives n = none := by
    simp [mounted?, hdrives, hn.symm]
  have hentries : ∀ entry ∈ config.disk.drives, entry.drive < 4 ∧
      (entry.create = true → tree.contains (config.imagePath entry) = true) := by
    rw [hdrives]
    decide
  have hzero : ∃ entry ∈ config.disk.drives, entry.drive = 0 ∧
      ∃ bytes, tree.read (config.imagePath entry) = .ok bytes := by
    rw [hdrives]
    exact ⟨_, List.mem_cons_self, rfl, #[9], by decide +kernel⟩
  have hinside : ∀ address, config.machine.dumpSector = some address →
      Geometry.eightInch.contains address.track.toNat address.sector.toNat = true := by
    intro address haddress
    obtain rfl : (⟨0, 1⟩ : SectorAddress) = address := Option.some.inj haddress
    rfl
  obtain ⟨image, himage, houtcome, hreports, -, -⟩ :=
    run_boots_and_reads config tree hvalid rfl hentries hzero hinside
  obtain rfl : ⟨"./b", #[1, 2, 3]⟩ = image := Option.some.inj (hmounted.symm.trans himage)
  have hnamed : describeImage .copyOnWrite ⟨"./b", #[1, 2, 3]⟩ =
      "./b (copy-on-write, 3 bytes)" := by
    decide +kernel
  have hdisks : (List.range 4).map (fun n => Report.drive n
      ((mounted? config tree config.disk.drives n).map (describeImage .copyOnWrite))) =
      [.drive 0 (some "./b (copy-on-write, 3 bytes)"), .drive 1 none, .drive 2 none,
        .drive 3 none] := by
    simp [List.range_succ, hmounted, hempty, hnamed]
  refine ⟨hvalid, houtcome, hreports.trans ?_⟩
  exact congrArg (· ++ bootReports config _ ++ sectorReports config _ ++ [.poolUse 0 256 0]) hdisks

end Session

end HardSector
