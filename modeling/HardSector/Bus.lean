import HardSector.Bus.Traffic
import HardSector.Controller
import HardSector.IoSpace
import HardSector.SenseSwitches
import Std.Data.TreeMap

/-!
# The I/O bus

The bus routes reads and writes to the device that answers at an address. It knows for every address
the kind of device, a description and the traffic so far. A device is installed at the addresses it
lists, over whatever answered there before.
-/

namespace HardSector

/-- Values by I/O address, in order of the addresses. -/
abbrev AddressMap (α : Type) := Std.TreeMap UInt16 α

/-- The devices on the bus, and what is known of each address. -/
structure Bus (M R : Type) where
  controller : Option (Controller M R) := none
  switches : Option SenseSwitches := none
  routes : AddressMap DeviceKind := ∅
  descriptions : AddressMap String := ∅
  traffic : AddressMap Traffic := ∅

namespace Bus

variable {M R W : Type} [Medium M R W]

/-- The description of an address in a report when no device is known to have answered there. -/
def unmapped : String := "Unmapped"

/-- What the operator is told about listed addresses at which a device answers already. -/
def takenNotices (bus : Bus M R) (listed : List (String × UInt16)) : List Notice :=
  listed.filterMap fun (description, address) =>
    bus.routes[address]?.map fun owner => .addressTaken description address owner

/-- Route the listed addresses to a kind of device. -/
def claim (bus : Bus M R) (kind : DeviceKind) (listed : List (String × UInt16)) : Bus M R :=
  { bus with
    descriptions :=
      listed.foldl (fun map (description, address) => map.insert address description)
        bus.descriptions
    routes := listed.foldl (fun map (_, address) => map.insert address kind) bus.routes }

/-- Let the installed controller do what a controller does before it goes. -/
def closeController (h : Hosted (Bus M R) W) : Hosted (Bus M R) W :=
  match h with
  | ⟨bus, host, notices⟩ =>
    match bus.controller with
    | none => ⟨bus, host, notices⟩
    | some controller =>
      match Controller.flushAll ⟨controller, host, notices⟩ with
      | ⟨controller, host, notices⟩ =>
        ⟨{ bus with controller := some controller }, host, notices⟩

/-- Install a disk controller. One that is already installed goes. -/
def installController (h : Hosted (Bus M R) W) (controller : Controller M R) :
    Hosted (Bus M R) W :=
  let listed := controller.addresses
  let h := h.note (controller.addressNotices ++ h.device.takenNotices listed)
  match closeController { h with device := h.device.claim .diskController listed } with
  | ⟨bus, host, notices⟩ => ⟨{ bus with controller := some controller }, host, notices⟩

/-- Install sense switches. -/
def installSwitches (h : Hosted (Bus M R) W) (switches : SenseSwitches) : Hosted (Bus M R) W :=
  let listed := Device.addresses W switches
  let h := h.note (h.device.takenNotices listed)
  { h with
    device := { h.device.claim .senseSwitches listed with switches := some switches } }

/-- Take the disk controller off the bus. Its addresses are no longer routed, and descriptions are
kept for routed addresses only. -/
def removeController (bus : Bus M R) : Option (Controller M R) × Bus M R :=
  let routes := bus.routes.filter fun _ kind => kind != .diskController
  (bus.controller, { bus with
    controller := none
    routes := routes
    descriptions := bus.descriptions.filter fun address _ => routes.contains address })

/-- The answer of the device at an address to a read, none if no device answers. -/
def answer (h : Hosted (Bus M R) W) (address : UInt16) :
    Except Fault (Option UInt8) × Hosted (Bus M R) W :=
  match h with
  | ⟨bus, host, notices⟩ =>
    match bus.routes[address]? with
    | none => (.ok none, ⟨bus, host, notices⟩)
    | some .diskController =>
      match bus.controller with
      | none => (.ok none, ⟨bus, host, notices⟩)
      | some controller =>
        match Device.read ⟨controller, host, notices⟩ address with
        | (outcome, ⟨controller, host, notices⟩) =>
          (outcome.map some, ⟨{ bus with controller := some controller }, host, notices⟩)
    | some .senseSwitches =>
      match bus.switches with
      | none => (.ok none, ⟨bus, host, notices⟩)
      | some switches =>
        match Device.read ⟨switches, host, notices⟩ address with
        | (outcome, ⟨switches, host, notices⟩) =>
          (outcome.map some, ⟨{ bus with switches := some switches }, host, notices⟩)

/-- Give a byte to the device at an address, and tell whether there is one. -/
def deliver (h : Hosted (Bus M R) W) (address : UInt16) (byte : UInt8) :
    Except Fault Bool × Hosted (Bus M R) W :=
  match h with
  | ⟨bus, host, notices⟩ =>
    match bus.routes[address]? with
    | none => (.ok false, ⟨bus, host, notices⟩)
    | some .diskController =>
      match bus.controller with
      | none => (.ok false, ⟨bus, host, notices⟩)
      | some controller =>
        match Device.write ⟨controller, host, notices⟩ address byte with
        | (outcome, ⟨controller, host, notices⟩) =>
          (outcome.map fun _ => true,
            ⟨{ bus with controller := some controller }, host, notices⟩)
    | some .senseSwitches =>
      match bus.switches with
      | none => (.ok false, ⟨bus, host, notices⟩)
      | some switches =>
        match Device.write ⟨switches, host, notices⟩ address byte with
        | (outcome, ⟨switches, host, notices⟩) =>
          (outcome.map fun _ => true,
            ⟨{ bus with switches := some switches }, host, notices⟩)

/-- Count a read at an address. -/
def countRead (bus : Bus M R) (address : UInt16) (answered : Bool) (byte : UInt8) : Bus M R :=
  { bus with
    traffic := bus.traffic.insert address (.afterRead bus.traffic[address]? answered byte) }

/-- Count a write at an address. -/
def countWrite (bus : Bus M R) (address : UInt16) (answered : Bool) (byte : UInt8) : Bus M R :=
  { bus with
    traffic := bus.traffic.insert address (.afterWrite bus.traffic[address]? answered byte) }

/-- Read a byte at an address. Where no device answers, the line is open. -/
def read (h : Hosted (Bus M R) W) (address : UInt16) :
    Except Fault UInt8 × Hosted (Bus M R) W :=
  match answer h address with
  | (.error fault, h) => (.error fault, h)
  | (.ok given, ⟨bus, host, notices⟩) =>
    let byte := given.getD openLine
    (.ok byte, ⟨bus.countRead address given.isSome byte, host, notices⟩)

/-- Write a byte at an address. Where no device answers, it is lost. -/
def write (h : Hosted (Bus M R) W) (address : UInt16) (byte : UInt8) :
    Except Fault Unit × Hosted (Bus M R) W :=
  match deliver h address byte with
  | (.error fault, h) => (.error fault, h)
  | (.ok answered, ⟨bus, host, notices⟩) =>
    (.ok (), ⟨bus.countWrite address answered byte, host, notices⟩)

/-- A bus amid its host is an I/O space. -/
instance : IoSpace (Hosted (Bus M R) W) where
  read := read
  write := write

/-- The description of an address. -/
def description? (bus : Bus M R) (address : UInt16) : Option String := bus.descriptions[address]?

/-- The traffic at every address that has seen any, in order of the addresses. -/
def report (bus : Bus M R) : List (UInt16 × String × Traffic) :=
  bus.traffic.toList.map fun (address, traffic) =>
    let description := if traffic.answered then bus.description? address else none
    (address, description.getD unmapped, traffic)

end Bus

end HardSector
