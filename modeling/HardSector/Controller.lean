import HardSector.Device
import HardSector.Drive
import HardSector.Medium.CopyOnWrite

/-!
# The disk controller

Four drives hang on a controller, which passes commands and data to the one that is selected and
owns the resource that their media share. Its three registers are reached at consecutive I/O
addresses.

The operations act on a controller in a host and return what it has to tell the operator.
-/

namespace HardSector

/-- The number of drives of a controller. -/
abbrev driveCount : Nat := 4

/-- A disk controller: its drives, the selected one, what their media share, and the address of its
first register. -/
structure Controller (M R : Type) where
  drives : Vector (Drive M) driveCount
  selected : Fin driveCount := 0
  shared : R
  base : UInt16

/-- The registers of a disk controller. -/
inductive Register where
  | status
  | sector
  | data
deriving DecidableEq, Repr

namespace Register

/-- All registers, by increasing address. -/
def all : List Register := [status, sector, data]

/-- How far a register lies behind the first. -/
def distance : Register → UInt16
  | status => 0
  | sector => 1
  | data => 2

/-- The description of a register. -/
def label : Register → String
  | status => "DCDD Drive Select/Status"
  | sector => "DCDD Drive Function/Sector Position"
  | data => "DCDD Data"

/-- The register at a distance from the first. -/
def ofDistance? (distance : UInt16) : Option Register :=
  all.find? fun register => register.distance == distance

end Register

namespace Controller

variable {M R W : Type}

/-- The address of the first register unless another is asked for. -/
def defaultBase : UInt16 := 0x08

/-- A controller with empty drives. -/
def ofShared (shared : R) (base : UInt16) : Controller M R where
  drives := Vector.ofFn fun n => { number := n.val }
  shared := shared
  base := base

/-- The address at a distance from the first register, unless it lies past the last address. -/
def addressAt? (controller : Controller M R) (distance : UInt16) : Option UInt16 :=
  let address := controller.base.toNat + distance.toNat
  if address < UInt16.size then some (UInt16.ofNat address) else none

/-- The address of a register, if there is one for it. -/
def address? (controller : Controller M R) (register : Register) : Option UInt16 :=
  controller.addressAt? register.distance

/-- The registers that have an address, with their addresses. -/
def addresses (controller : Controller M R) : List (String × UInt16) :=
  Register.all.filterMap fun register =>
    (controller.address? register).map fun address => (register.label, address)

/-- What the operator is told of the registers that have no address. -/
def addressNotices (controller : Controller M R) : List Notice :=
  Register.all.filterMap fun register =>
    if (controller.address? register).isNone then
      some (.registerOutOfRange register.label controller.base)
    else none

/-- The drive with a number. -/
def drive? (controller : Controller M R) (n : Nat) : Option (Drive M) := controller.drives[n]?

/-- The selected drive. -/
def selectedDrive (controller : Controller M R) : Drive M :=
  controller.drives[controller.selected]

/-- The status register: that of the selected drive. -/
def status (controller : Controller M R) : UInt8 := controller.selectedDrive.status.bits

/-- Select a drive by the low four bits of a byte. A drive that does not exist selects drive 0. -/
def select (controller : Controller M R) (byte : UInt8) : Controller M R :=
  let n := byte.toNat % 16
  { controller with selected := if h : n < driveCount then ⟨n, h⟩ else 0 }

/-- Let an operation of a drive act on the drive with a number. -/
def onDrive {α : Type} (h : Hosted (Controller M R) W) (n : Fin driveCount)
    (act : Bay M R W → α × Bay M R W) : α × Hosted (Controller M R) W :=
  match h with
  | ⟨⟨drives, selected, shared, base⟩, host, notices⟩ =>
    match act ⟨drives[n], ⟨shared, host, notices⟩⟩ with
    | (result, ⟨drive, ⟨shared, host, notices⟩⟩) =>
      (result, ⟨⟨drives.set n drive, selected, shared, base⟩, host, notices⟩)

/-- Let an operation of a drive act on the selected drive. -/
def onSelected {α : Type} (h : Hosted (Controller M R) W)
    (act : Bay M R W → α × Bay M R W) : α × Hosted (Controller M R) W :=
  onDrive h h.device.selected act

variable [Medium M R W]

/-- Put a medium into a drive. -/
def load (h : Hosted (Controller M R) W) (n : Nat) (medium : M) :
    Except DiskError Unit × Hosted (Controller M R) W :=
  if hn : n < driveCount then
    ((.ok ()), (onDrive h ⟨n, hn⟩ fun bay => ((), bay.load medium)).2)
  else (.error (.invalidDrive n), h)

/-- Take the medium out of a drive. -/
def eject (h : Hosted (Controller M R) W) (n : Nat) :
    Except DiskError (Option M) × Hosted (Controller M R) W :=
  if hn : n < driveCount then
    match onDrive h ⟨n, hn⟩ Bay.eject with
    | (medium, h) => (.ok medium, h)
  else (.error (.invalidDrive n), h)

/-- Give a control byte to the selected drive. -/
def function (h : Hosted (Controller M R) W) (byte : UInt8) : Hosted (Controller M R) W :=
  (onSelected h fun bay => ((), bay.function (Control.ofByte byte))).2

/-- The position register: the next sector of the selected drive. -/
def sector (h : Hosted (Controller M R) W) : UInt8 × Hosted (Controller M R) W :=
  onSelected h Bay.nextSector

/-- Write a byte to the selected drive. -/
def write (h : Hosted (Controller M R) W) (byte : UInt8) : Hosted (Controller M R) W :=
  (onSelected h fun bay => ((), bay.writeByte byte)).2

/-- Read a byte from the selected drive. -/
def read (h : Hosted (Controller M R) W) : Except Fault UInt8 × Hosted (Controller M R) W :=
  onSelected h Bay.readByte

/-- Store what is buffered in every drive, in the order of the drives. A controller does so before
it goes. -/
def flushAll (h : Hosted (Controller M R) W) : Hosted (Controller M R) W :=
  (List.finRange driveCount).foldl (fun h n => (onDrive h n fun bay => ((), bay.flush)).2) h

/-- Read the register at an address. -/
def readAddress (h : Hosted (Controller M R) W) (address : UInt16) :
    Except Fault UInt8 × Hosted (Controller M R) W :=
  match Register.ofDistance? (address - h.device.base) with
  | some .status => (.ok h.device.status, h)
  | some .sector =>
    match sector h with
    | (byte, h) => (.ok byte, h)
  | some .data => read h
  | none => (.error .noSuchRegister, h)

/-- Write the register at an address. -/
def writeAddress (h : Hosted (Controller M R) W) (address : UInt16) (byte : UInt8) :
    Except Fault Unit × Hosted (Controller M R) W :=
  match Register.ofDistance? (address - h.device.base) with
  | some .status => (.ok (), { h with device := h.device.select byte })
  | some .sector => (.ok (), function h byte)
  | some .data => (.ok (), write h byte)
  | none => (.error .noSuchRegister, h)

instance : Device (Controller M R) W where
  addresses := addresses
  read := readAddress
  write := writeAddress

/-- A controller of copy-on-write media with a pool of its own. -/
def ofPool (capacity : Nat) (base : UInt16) : Controller CopyOnWrite PatchPool :=
  ofShared (.ofCapacity capacity) base

end Controller

end HardSector
