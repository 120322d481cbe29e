import HardSector.Geometry
import HardSector.Storage.Error
import HardSector.Text.Hex

/-!
# Notices

What an operation tells the operator besides its result. A notice has a severity and a text, and
operations return their notices in the order in which they arose.
-/

namespace HardSector

/-- The kinds of device that answer at I/O addresses. -/
inductive DeviceKind where
  | diskController
  | senseSwitches
deriving DecidableEq, Repr

/-- The name of a kind of device in notices. -/
def DeviceKind.label : DeviceKind → String
  | diskController => "DiskController"
  | senseSwitches => "SenseSwitches"

/-- How grave a notice is. -/
inductive Severity where
  | warning
  | error
deriving DecidableEq, Repr

/-- Something the operator should know. -/
inductive Notice where
  | poolLimited (requested limit : Nat)
  | poolExhausted (used capacity : Nat)
  | imageShort (path : String) (size : Nat)
  | imageExists (path : String)
  | imageUnavailable (drive : Nat) (path : String) (cause : DiskError)
  | openFailed (path : String) (cause : StorageError)
  | flushFailed (cause : StorageError)
  | readFailed (drive offset : Nat) (cause : DiskError)
  | writeFailed (drive offset : Nat) (cause : DiskError)
  | registerOutOfRange (register : String) (base : UInt16)
  | addressTaken (register : String) (address : UInt16) (owner : DeviceKind)
deriving DecidableEq, Repr

namespace Notice

/-- How grave a notice is: lost data and unreachable registers are errors. -/
def severity : Notice → Severity
  | poolLimited .. => .warning
  | poolExhausted .. => .error
  | imageShort .. => .warning
  | imageExists .. => .warning
  | imageUnavailable .. => .warning
  | openFailed .. => .error
  | flushFailed .. => .error
  | readFailed .. => .error
  | writeFailed .. => .error
  | registerOutOfRange .. => .error
  | addressTaken .. => .warning

/-- The text of a notice. -/
def text : Notice → String
  | poolLimited requested limit =>
      s!"Requested patch pool of {requested} slots exceeds the maximum, limiting to {limit}"
  | poolExhausted used capacity =>
      s!"Patch pool exhausted ({used}/{capacity}). Disk writes will be lost!"
  | imageShort path size =>
      s!"{path} is smaller than expected ({size} bytes, expected {Geometry.eightInch.diskSize})"
  | imageExists path => s!"Requested disk image already exists: {path}"
  | imageUnavailable drive path cause =>
      s!"Drive {drive}: couldn't open {path}: {cause.message}"
  | openFailed path cause => s!"Failed to open {path}: {cause.message}"
  | flushFailed cause => s!"Failed to flush disk image: {cause.message}"
  | readFailed drive offset cause =>
      s!"Drive {drive}: failed to read sector at offset {Text.hex 6 offset}: {cause.message}"
  | writeFailed drive offset cause =>
      s!"Drive {drive}: failed to write sector at offset {Text.hex 6 offset}: {cause.message}"
  | registerOutOfRange register base =>
      s!"DCDD: {register} register is out of range at base port {Text.hex 4 base.toNat}"
  | addressTaken register address owner =>
      s!"{register} at port {Text.hex 2 address.toNat} replaces {owner.label}"

end Notice

end HardSector
