import HardSector.Boot
import HardSector.Config
import HardSector.HexDump
import HardSector.LoaderRom
import HardSector.Medium.Blank
import HardSector.Medium.InPlace
import HardSector.Size

/-!
# Sessions

A session does what a configuration asks for, on a file tree: it makes a blank image, or it loads
the drives, puts the controller on a bus, boots and reads a sector. It reports what it does in
order, and what was reported before a failure stands.
-/

namespace HardSector

/-- Something a session did. -/
inductive Report where
  | created (path : String)
  | drive (number : Nat) (description : Option String)
  | booted (report : BootReport) (bytes : Bytes)
  | sector (address : SectorAddress) (bytes : Bytes)
  | poolUse (used capacity droppedWrites : Nat)
deriving DecidableEq, Repr

/-- The text of a report, with the text of the time that a boot took. -/
def Report.text (elapsed : String) : Report → String
  | created path =>
      s!"Created {path} ({sizeText (UInt64.ofNat Geometry.eightInch.diskSize)})\n"
  | drive number none => s!"Drive {number}: <empty>\n"
  | drive number (some description) => s!"Drive {number}: {description}\n"
  | booted report bytes =>
      s!"Booted: {report.bytes} bytes from sector {report.sector} in {elapsed}, " ++
        s!"jumping to {Text.hex 4 report.entry.toNat}\n" ++ HexDump.dump bytes 0
  | sector address bytes =>
      s!"Track {address.track} sector {address.sector}:\n" ++ HexDump.dump bytes 0
  | poolUse used capacity droppedWrites =>
      s!"Patch pool: {used}/{capacity} sectors used, {droppedWrites} writes dropped\n"

/-- Why a session ended early. -/
inductive SessionError where
  | blank (cause : Blank.Failure)
  | creating (drive : Nat) (cause : Blank.Failure)
  | loading (cause : DiskError)
  | loader (cause : LoaderRom.Misfit)
  | boot (cause : BootError)
  | reading (address : SectorAddress) (cause : BootError)
deriving DecidableEq, Repr

/-- The text of a session error. -/
def SessionError.message : SessionError → String
  | blank cause => cause.message
  | creating drive cause => s!"Creating image for drive {drive}: {cause.message}"
  | loading cause => cause.message
  | loader cause => cause.message
  | boot cause => s!"Boot failed: {cause.message}"
  | reading address cause => s!"Reading sector {address.text}: {cause.message}"

/-- How far a session has come: what it reported, whether it goes on, and what it works on. -/
structure Progress (S : Type) where
  reports : List Report
  outcome : Except SessionError Unit
  state : S

namespace Progress

/-- A step that reports something and goes on. -/
def reported {S : Type} (reports : List Report) (state : S) : Progress S := ⟨reports, .ok (), state⟩

/-- One step and, unless it fails, the next. -/
def andThen {S : Type} (first : Progress S) (next : S → Progress S) : Progress S :=
  match first with
  | ⟨reports, .error cause, state⟩ => ⟨reports, .error cause, state⟩
  | ⟨reports, .ok (), state⟩ =>
    match next state with
    | ⟨later, outcome, state⟩ => ⟨reports ++ later, outcome, state⟩

end Progress

/-- The end of a session. -/
structure SessionEnd where
  reports : List Report
  outcome : Except SessionError Unit
  notices : List Notice
  tree : FileTree

namespace Session

/-- The size of the memory that a boot fills. -/
def memorySize : Nat := 65536

/-- How an image is opened as a medium. -/
abbrev Opening (M : Type) := FileTree → String → Except StorageError M × List Notice

variable {M R : Type} [Medium M R FileTree]

/-- The file tree with a blank image for an entry that asks for one where nothing exists. -/
def provide (tree : FileTree) (entry : DriveEntry) (path : String) :
    Except Blank.Failure FileTree :=
  if entry.create && !tree.contains path then Blank.create tree path else .ok tree

/-- Put the image of an entry into its drive. An image that cannot be opened leaves the drive as it
is. -/
def loadDrive (config : Config) (opening : Opening M) (entry : DriveEntry)
    (h : Hosted (Controller M R) FileTree) : Progress (Hosted (Controller M R) FileTree) :=
  let path := config.imagePath entry
  match provide h.host entry path with
  | .error cause => ⟨[], .error (.creating entry.drive cause), h.note cause.notices⟩
  | .ok tree =>
    let h := { h with host := tree }
    match opening tree path with
    | (.error cause, notices) =>
      .reported [] (h.note (notices ++ [.imageUnavailable entry.drive path (.storage cause)]))
    | (.ok medium, notices) =>
      match Controller.load (h.note notices) entry.drive medium with
      | (.ok (), h) => .reported [] h
      | (.error cause, h) => ⟨[], .error (.loading cause), h⟩

/-- Put the images of entries into their drives, in order. -/
def loadDrives (config : Config) (opening : Opening M) :
    List DriveEntry → Hosted (Controller M R) FileTree →
      Progress (Hosted (Controller M R) FileTree)
  | [], h => .reported [] h
  | entry :: entries, h =>
    (loadDrive config opening entry h).andThen (loadDrives config opening entries)

/-- What is in each drive. -/
def driveReports (controller : Controller M R) : List Report :=
  controller.drives.toList.map fun drive =>
    .drive drive.number (drive.medium.map Described.describe)

/-- A bus with a controller and the sense switches. -/
def assemble (config : Config) (h : Hosted (Controller M R) FileTree) :
    Hosted (Bus M R) FileTree :=
  let controller := { h.device with base := config.disk.base }
  let bus := Bus.installController ⟨{}, h.host, h.notices⟩ controller
  Bus.installSwitches bus ⟨config.disk.switches⟩

/-- Boot, if the configuration asks for it. -/
def boot (config : Config) (h : Hosted (Bus M R) FileTree) :
    Progress (Hosted (Bus M R) FileTree) :=
  if config.machine.boot then
    match LoaderRom.load (Bytes.zeros memorySize) LoaderRom.address with
    | .error cause => ⟨[], .error (.loader cause), h⟩
    | .ok memory =>
      match Boot.run memory h with
      | (.ok (report, memory), h) =>
        .reported [.booted report (memory.extract 0 report.bytes)] h
      | (.error cause, h) => ⟨[], .error (.boot cause), h⟩
  else .reported [] h

/-- Read the sector that the configuration asks for. -/
def dumpSector (config : Config) (h : Hosted (Bus M R) FileTree) :
    Progress (Hosted (Bus M R) FileTree) :=
  match config.machine.dumpSector with
  | none => .reported [] h
  | some address =>
    match Boot.readSector address.track address.sector h with
    | (.ok bytes, h) => .reported [.sector address bytes] h
    | (.error cause, h) => ⟨[], .error (.reading address cause), h⟩

/-- What is reported of the shared resource of the installed controller. -/
def summary (summarize : R → List Report) (bus : Bus M R) : List Report :=
  match bus.controller with
  | none => []
  | some controller => summarize controller.shared

/-- Work with a controller: load its drives, install it, and do what is asked for. What is buffered
is stored in the end, whether or not a step failed. -/
def operate (config : Config) (opening : Opening M) (summarize : R → List Report)
    (h : Hosted (Controller M R) FileTree) : SessionEnd :=
  match loadDrives config opening config.disk.drives h with
  | ⟨reports, .error cause, h⟩ =>
    let h := Controller.flushAll h
    ⟨reports, .error cause, h.notices, h.host⟩
  | ⟨reports, .ok (), h⟩ =>
    match (boot config (assemble config h)).andThen (dumpSector config) with
    | ⟨later, outcome, bus⟩ =>
      let bus := Bus.closeController bus
      let last := if outcome.isOk then summary summarize bus.device else []
      ⟨reports ++ driveReports h.device ++ later ++ last, outcome, bus.notices, bus.host⟩

/-- What is reported of a patch pool. -/
def poolReports (pool : PatchPool) : List Report :=
  [.poolUse pool.used pool.capacity pool.droppedWrites]

/-- Work with images in memory, which are never changed. -/
def runCopyOnWrite (config : Config) (tree : FileTree) : SessionEnd :=
  let size := config.disk.poolSize
  operate config CopyOnWrite.ofFile poolReports
    ⟨Controller.ofPool size config.disk.base, tree, PatchPool.capacityNotices size⟩

/-- Work with images in place. -/
def runInPlace (config : Config) (tree : FileTree) : SessionEnd :=
  operate config InPlace.ofFile (fun _ => [])
    ⟨Controller.ofShared () config.disk.base, tree, []⟩

/-- Make a blank image. -/
def createBlank (config : Config) (tree : FileTree) (path : String) : SessionEnd :=
  let path := Path.resolve config.machine.baseDir path
  match Blank.create tree path with
  | .ok tree => ⟨[.created path], .ok (), [], tree⟩
  | .error cause => ⟨[], .error (.blank cause), cause.notices, tree⟩

/-- Do what a configuration asks for. Making a blank image is all that is done then. -/
def run (config : Config) (tree : FileTree) : SessionEnd :=
  match config.machine.createBlank with
  | some path => createBlank config tree path
  | none =>
    match config.disk.backend with
    | .copyOnWrite => runCopyOnWrite config tree
    | .inPlace => runInPlace config tree

end Session

end HardSector
