import HardSector.Controller
import HardSector.Mount
import HardSector.SectorAddress
import HardSector.SenseSwitches
import HardSector.Storage.Path

/-!
# Configurations

A configuration says where images lie, how they are attached to drives, where the devices answer and
what is to be done. Command line arguments are laid over the settings of a file and take precedence.
The format of the file is not fixed here: whatever parses it is given.
-/

namespace HardSector

/-- How disk images are attached to drives. -/
inductive Backend where
  /-- Images are read into memory and never changed. -/
  | copyOnWrite
  /-- Images are read and written in place. -/
  | inPlace
deriving DecidableEq, Repr

namespace Backend

/-- The name of a backend. -/
def name : Backend → String
  | copyOnWrite => "cow"
  | inPlace => "file"

/-- All backends. -/
def all : List Backend := [copyOnWrite, inPlace]

/-- The backend with exactly this name. -/
def ofName? (text : String) : Option Backend := all.find? fun backend => backend.name == text

/-- A name that no backend has. -/
structure Unknown where
deriving DecidableEq, Repr

/-- The text for an unknown backend. -/
def Unknown.message (_ : Unknown) : String := "Matching variant not found"

/-- The backend with this name, whatever the case of its ASCII letters. -/
def ofText (text : String) : Except Unknown Backend :=
  match ofName? (String.ofList (text.toList.map Char.toLower)) with
  | some backend => .ok backend
  | none => .error ⟨⟩

end Backend

/-- An image for a drive. With `create`, a blank one is made if there is none. -/
structure DriveEntry where
  drive : Nat
  filename : String
  create : Bool := false
deriving DecidableEq, Repr

/-- The settings of the machine and what it is to do. -/
structure MachineSettings where
  baseDir : String := "."
  boot : Bool := false
  createBlank : Option String := none
  dumpSector : Option SectorAddress := none
deriving DecidableEq, Repr

/-- The settings of the disk system. -/
structure DiskSettings where
  backend : Backend := .copyOnWrite
  poolSize : Nat := PatchPool.defaultCapacity
  base : UInt16 := Controller.defaultBase
  switches : UInt8 := 0
  listed : Option (List DriveEntry) := none
deriving DecidableEq, Repr

/-- A configuration. -/
structure Config where
  machine : MachineSettings := {}
  disk : DiskSettings := {}
deriving DecidableEq, Repr

/-- What the command line asks for. -/
structure Arguments where
  configFile : Option String := none
  baseDir : Option String := none
  backend : Option Backend := none
  poolSize : Option Nat := none
  boot : Bool := false
  createBlank : Option String := none
  dumpSector : Option SectorAddress := none
  mounts : List Mount := []

namespace DiskSettings

/-- The images for the drives when none are configured. -/
def defaultDrives : List DriveEntry :=
  [⟨0, "Disks/cpm63k.dsk", false⟩, ⟨1, "Disks/bdsc-v1.60.dsk", false⟩,
    ⟨2, "Disks/escape-posix.dsk", false⟩, ⟨3, "Disks/blank.dsk", false⟩]

/-- The entries to load, in order of their drives; entries for one drive stay in their order. -/
def drives (disk : DiskSettings) : List DriveEntry :=
  let entries :=
    match disk.listed with
    | none | some [] => defaultDrives
    | some entries => entries
  entries.mergeSort fun a b => decide (a.drive ≤ b.drive)

/-- Let an entry be the only one for its drive. -/
def setDrive (disk : DiskSettings) (entry : DriveEntry) : DiskSettings :=
  let others := (disk.listed.getD []).filter fun other => other.drive != entry.drive
  { disk with listed := some (others ++ [entry]) }

/-- Why the registers of a controller cannot lie where the settings put them. -/
inductive Misplaced where
  | tooHigh (base : UInt16)
  | overSwitches (base : UInt16)
deriving DecidableEq, Repr

/-- The highest I/O address of the processor. -/
def highestAddress : UInt16 := 0xFF

/-- The highest address at which a controller can begin. -/
def highestBase : UInt16 := highestAddress - Register.data.distance

/-- The text of a misplacement. -/
def Misplaced.message : Misplaced → String
  | tooHigh base =>
      s!"Disk controller io_base {Text.hex 2 base.toNat} must be at most " ++
        Text.hex 2 highestBase.toNat
  | overSwitches base =>
      s!"Disk controller io_base {Text.hex 2 base.toNat} overlaps the sense switches at port " ++
        Text.hex 2 SenseSwitches.address.toNat

/-- Check that the registers of the controller have addresses and spare that of the switches. -/
def validate (disk : DiskSettings) : Except Misplaced Unit :=
  if highestBase < disk.base then .error (.tooHigh disk.base)
  else if disk.base ≤ SenseSwitches.address ∧
      SenseSwitches.address ≤ disk.base + Register.data.distance then
    .error (.overSwitches disk.base)
  else .ok ()

end DiskSettings

namespace Config

/-- The drive entry that a mount request asks for. -/
def entryOfMount (mount : Mount) : DriveEntry :=
  ⟨mount.drive, mount.path, mount.flag "create"⟩

/-- A configuration with arguments laid over it. -/
def overlay (config : Config) (args : Arguments) : Config where
  machine :=
    { baseDir := args.baseDir.getD config.machine.baseDir
      boot := config.machine.boot || args.boot
      createBlank := args.createBlank
      dumpSector := args.dumpSector }
  disk :=
    (args.mounts.map entryOfMount).foldl DiskSettings.setDrive
      { config.disk with
        backend := args.backend.getD config.disk.backend
        poolSize := args.poolSize.getD config.disk.poolSize }

/-- The path of an entry's image. -/
def imagePath (config : Config) (entry : DriveEntry) : String :=
  Path.resolve config.machine.baseDir entry.filename

/-- Takes the settings from a text, or says what is wrong with it. -/
abbrev Parser := String → Except String Config

end Config

/-- Why a configuration was not accepted. -/
inductive ConfigFailure where
  | unparsed (message : String)
  | misplaced (cause : DiskSettings.Misplaced)
deriving DecidableEq, Repr

/-- The text of a failure. -/
def ConfigFailure.message : ConfigFailure → String
  | unparsed message => message
  | misplaced cause => cause.message

/-- The configuration that a text gives with arguments laid over it, if it can be carried out. -/
def Config.readWith (parse : Config.Parser) (text : String) (args : Arguments) :
    Except ConfigFailure Config :=
  match parse text with
  | .error message => .error (.unparsed message)
  | .ok config =>
    let config := config.overlay args
    match config.disk.validate with
    | .ok () => .ok config
    | .error cause => .error (.misplaced cause)

end HardSector
