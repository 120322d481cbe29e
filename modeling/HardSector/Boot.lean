import HardSector.Bus

/-!
# Booting and reading sectors through the bus

The bus is driven as the boot loader and a simple disk routine would drive it: select drive 0, load
the head, wait for the registers to show what is waited for, and transfer a sector byte by byte.
Every wait is limited.
-/

namespace HardSector

/-- How often a status is looked at before a wait is given up. -/
def pollLimit : Nat := 1024

/-- Why a boot or a sector transfer failed. -/
inductive BootError where
  | noController
  | headNotLoaded (drive : UInt8)
  | sectorTimeout (sector : UInt8)
  | noTrackZero (drive : UInt8)
  | memoryTooSmall (size : Nat)
  | addressOutOfRange (base : UInt16)
  | fault (cause : Fault)
deriving DecidableEq, Repr

namespace BootError

/-- The text of a boot error. -/
def message : BootError → String
  | noController => "No disk controller is installed on the bus"
  | headNotLoaded drive => s!"Drive {drive} never loaded its head. Is there a disk in the drive?"
  | sectorTimeout sector => s!"Timed out waiting for the start of sector {sector}"
  | noTrackZero drive => s!"Drive {drive} never reached track 0"
  | memoryTooSmall size => s!"Memory of {size} bytes is too small for a sector"
  | addressOutOfRange base =>
      s!"Disk controller base port {Text.hex 4 base.toNat} leaves registers outside the port space"
  | fault .bufferOverrun => "The sector buffer was overrun"
  | fault .noSuchRegister => "The controller has no register there"

end BootError

/-- What a boot did: the sector it took, how many bytes it copied to memory, and where execution
goes on. -/
structure BootReport where
  sector : UInt8
  bytes : Nat
  entry : UInt16
deriving DecidableEq, Repr

namespace Boot

/-- The addresses of the three registers of a controller. -/
structure Registers where
  status : UInt16
  sector : UInt16
  data : UInt16
deriving DecidableEq, Repr

/-- The addresses of the registers of the installed controller. -/
def registers? {M R : Type} (bus : Bus M R) : Except BootError Registers :=
  match bus.controller with
  | none => .error .noController
  | some controller =>
    match controller.address? .status, controller.address? .sector, controller.address? .data with
    | some status, some sector, some data => .ok ⟨status, sector, data⟩
    | _, _, _ => .error (.addressOutOfRange controller.base)

section Steps

variable {S : Type} [IoSpace S]

/-- A step in an I/O space: it succeeds with a value or fails, and what follows goes on from where
it left the space. -/
abbrev Step (S α : Type) := S → Except BootError α × S

/-- Read a byte. -/
def input (address : UInt16) : Step S UInt8 := fun space =>
  match IoSpace.read space address with
  | (.ok byte, space) => (.ok byte, space)
  | (.error cause, space) => (.error (.fault cause), space)

/-- Write a byte. -/
def output (address : UInt16) (byte : UInt8) : Step S Unit := fun space =>
  match IoSpace.write space address byte with
  | (.ok (), space) => (.ok (), space)
  | (.error cause, space) => (.error (.fault cause), space)

/-- One step and then another that depends on its value. -/
def andThen {α β : Type} (first : Step S α) (next : α → Step S β) : Step S β := fun space =>
  match first space with
  | (.ok value, space) => next value space
  | (.error cause, space) => (.error cause, space)

/-- Read a register up to `limit` times until a byte is wanted. -/
def poll (address : UInt16) (wanted : UInt8 → Bool) (failure : BootError) : Nat → Step S UInt8
  | 0 => fun space => (.error failure, space)
  | limit + 1 =>
    andThen (input address) fun byte =>
      if wanted byte then fun space => (.ok byte, space)
      else poll address wanted failure limit

/-- The control byte of a single command. -/
def headLoad : UInt8 := Control.toByte { headLoad := true }

@[inherit_doc headLoad] def stepIn : UInt8 := Control.toByte { stepIn := true }

@[inherit_doc headLoad] def stepOut : UInt8 := Control.toByte { stepOut := true }

/-- Select a drive and load its head. -/
def selectAndLoad (r : Registers) (drive : UInt8) : Step S Unit :=
  andThen (output r.status drive) fun _ =>
    andThen (output r.sector headLoad) fun _ =>
      andThen
        (poll r.status (fun status => Status.isAsserted ⟨status⟩ .headStatus)
          (.headNotLoaded drive) pollLimit)
        fun _ space => (.ok (), space)

/-- Read bytes from the data register, after those that are there. -/
def transfer (r : Registers) : Nat → Bytes → Step S Bytes
  | 0, got => fun space => (.ok got, space)
  | count + 1, got => andThen (input r.data) fun byte => transfer r count (got.push byte)

/-- Boot from drive 0 through registers: wait for the start of a sector and copy the sector to the
start of memory. -/
def load (r : Registers) (memory : Bytes) : Step S (BootReport × Bytes) :=
  andThen (selectAndLoad r 0) fun _ =>
    andThen (poll r.sector Position.atStart (.sectorTimeout 0) pollLimit) fun register =>
      andThen (transfer r sectorSize #[]) fun bytes space =>
        (.ok (⟨Position.sector register, sectorSize, 0⟩, memory.splice 0 bytes), space)

/-- Step out until the head is over track zero, looking at most `limit` times. -/
def homeWithin (r : Registers) : Nat → Step S Unit
  | 0 => fun space => (.error (.noTrackZero 0), space)
  | limit + 1 =>
    andThen (input r.status) fun status =>
      if Status.isAsserted ⟨status⟩ .trackZero then fun space => (.ok (), space)
      else andThen (output r.sector stepOut) fun _ => homeWithin r limit

/-- Step in a number of times. -/
def stepInTimes (r : Registers) : Nat → Step S Unit
  | 0 => fun space => (.ok (), space)
  | count + 1 => andThen (output r.sector stepIn) fun _ => stepInTimes r count

/-- Read a sector of drive 0 through registers: home the head, step to the track, and wait at most
two turns for the sector to come round. -/
def fetch (r : Registers) (track sector : UInt8) : Step S Bytes :=
  andThen (selectAndLoad r 0) fun _ =>
    andThen (homeWithin r Geometry.eightInch.tracks) fun _ =>
      andThen (stepInTimes r track.toNat) fun _ =>
        andThen
          (poll r.sector
            (fun register => Position.atStart register && Position.sector register == sector)
            (.sectorTimeout sector) (Geometry.eightInch.sectors * 2))
          fun _ => transfer r sectorSize #[]

end Steps

variable {M R W : Type} [Medium M R W]

/-- Boot from drive 0 of the installed controller, into memory that holds at least a sector. -/
def run (memory : Bytes) : Step (Hosted (Bus M R) W) (BootReport × Bytes) := fun h =>
  if memory.size < sectorSize then (.error (.memoryTooSmall memory.size), h)
  else
    match registers? h.device with
    | .error cause => (.error cause, h)
    | .ok r => load r memory h

/-- Read a sector of drive 0 of the installed controller. -/
def readSector (track sector : UInt8) : Step (Hosted (Bus M R) W) Bytes := fun h =>
  match registers? h.device with
  | .error cause => (.error cause, h)
  | .ok r => fetch r track sector h

end Boot

end HardSector
