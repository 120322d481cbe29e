import HardSector.Geometry
import HardSector.Medium
import HardSector.Register.Control
import HardSector.Register.Position
import HardSector.Register.Status

/-!
# Drives

A drive follows the head over the tracks and sectors of its medium and keeps the sector under the
head in a buffer. Written bytes stay in the buffer until the sector is full or the head leaves it;
only then are they stored. A drive without a medium ignores commands, and its registers read fixed
values.

The operations act on a bay: a drive together with the site at which its medium works. The registers
and the head of a drive never depend on what the medium delivers.
-/

namespace HardSector

/-- The buffer has two bytes of slack after the sector, for a write that runs on. -/
abbrev bufferSize : Nat := sectorSize + 2

/-- The buffer of a drive. -/
abbrev Buffer := Vector UInt8 bufferSize

/-- A buffer of zeros. -/
def Buffer.zero : Buffer := Vector.replicate bufferSize 0

/-- A buffer that holds delivered bytes, at most a sector of them, and zeros after them. -/
def Buffer.ofDelivered (bytes : Bytes) : Buffer :=
  Vector.ofFn fun i => if i.val < sectorSize then bytes.getD i.val 0 else 0

/-- The sector in a buffer. -/
def Buffer.sector (buffer : Buffer) : Bytes := buffer.toArray.extract 0 sectorSize

/-- A drive. `sector` is the one that the next look at the position register reports, `pointer` the
place in the buffer of the next byte to transfer, and `offset` where the buffered sector lies in the
image. The buffer is `dirty` when it holds bytes to be stored and `fetched` when its contents stand
for the sector. -/
structure Drive (M : Type) where
  number : Nat
  track : Nat := 0
  sector : Nat := 0
  status : Status := .idle
  writeCount : Nat := 0
  buffer : Buffer := .zero
  pointer : Nat := 0
  offset : Nat := 0
  dirty : Bool := false
  fetched : Bool := false
  medium : Option M := none

/-- What the data register reads while there is no disk in the drive. -/
def noDiskByte : UInt8 := 0

/-- Why an access could not be carried out at all. -/
inductive Fault where
  | bufferOverrun
  | noSuchRegister
deriving DecidableEq, Repr

namespace Drive

variable {M : Type}

/-- Whether there is a medium in the drive. -/
def isLoaded (drive : Drive M) : Bool := drive.medium.isSome

/-- The drive with the buffer given up. -/
def settled (drive : Drive M) : Drive M :=
  { drive with dirty := false, fetched := false, pointer := 0 }

/-- The drive with a line of its status register asserted. -/
def assert (drive : Drive M) (line : StatusLine) : Drive M :=
  { drive with status := drive.status.assert line }

/-- The drive with a line of its status register negated. -/
def negate (drive : Drive M) (line : StatusLine) : Drive M :=
  { drive with status := drive.status.negate line }

end Drive

/-- A drive and the site at which its medium works. -/
structure Bay (M R W : Type) where
  drive : Drive M
  site : Site R W

namespace Bay

variable {M R W : Type} [Medium M R W]

/-- Store the buffered sector. A failure is told to the operator, and the bytes are lost. -/
def storeSector (bay : Bay M R W) : Bay M R W :=
  match bay with
  | ⟨drive, site⟩ =>
    match drive.medium with
    | none => ⟨drive, site⟩
    | some medium =>
      match Medium.store medium site drive.offset drive.buffer.sector with
      | ⟨.ok (), medium, site⟩ => ⟨{ drive with medium := some medium }, site⟩
      | ⟨.error cause, medium, site⟩ =>
        ⟨{ drive with medium := some medium },
          site.note [.writeFailed drive.number drive.offset cause]⟩

/-- Store the buffered sector if bytes were written to it, and give up the buffer then. -/
def flush (bay : Bay M R W) : Bay M R W :=
  if bay.drive.dirty then
    match bay.storeSector with
    | ⟨drive, site⟩ => ⟨drive.settled, site⟩
  else bay

/-- Take the medium out of the drive, with the buffered sector stored first. -/
def takeMedium (bay : Bay M R W) : Option M × Bay M R W :=
  match bay.flush with
  | ⟨drive, site⟩ => (drive.medium, ⟨{ number := drive.number }, site⟩)

/-- Put a medium into the drive. A medium that was there is released. -/
def load (bay : Bay M R W) (medium : M) : Bay M R W :=
  match bay.takeMedium with
  | (old, ⟨drive, site⟩) =>
    let site :=
      match old with
      | none => site
      | some old => (Medium.release old site).2
    ⟨{ number := drive.number, status := .loaded, medium := some medium }, site⟩

/-- Take the medium out of the drive and release it. -/
def eject (bay : Bay M R W) : Option M × Bay M R W :=
  match bay.takeMedium with
  | (none, bay) => (none, bay)
  | (some medium, ⟨drive, site⟩) =>
    let (medium, site) := Medium.release medium site
    (some medium, ⟨drive, site⟩)

/-- Move the head to a track: the buffered sector is stored where it belongs, and the sectors are
counted from the start of the track again. -/
def seek (bay : Bay M R W) (track : Nat) : Bay M R W :=
  match bay.flush with
  | ⟨drive, site⟩ =>
    ⟨{ drive with
        track := track
        offset := Geometry.eightInch.trackOffset track
        sector := 0
        pointer := 0
        fetched := false }, site⟩

/-- Step the head one track in, as far as the innermost. -/
def stepIn (bay : Bay M R W) : Bay M R W :=
  match bay with
  | ⟨drive, site⟩ =>
    seek ⟨drive.negate .trackZero, site⟩ (min (drive.track + 1) Geometry.eightInch.lastTrack)

/-- Step the head one track out, as far as track zero. -/
def stepOut (bay : Bay M R W) : Bay M R W :=
  match bay with
  | ⟨drive, site⟩ =>
    let track := drive.track - 1
    let drive := if track = 0 then drive.assert .trackZero else drive
    seek ⟨drive, site⟩ track

/-- The status after the head commands of a control byte. -/
def headCommands (status : Status) (control : Control) : Status :=
  let status :=
    if control.headLoad then (status.assert .headStatus).assert .readDataAvailable else status
  if control.headUnload then status.negate .headStatus else status

/-- Obey a control byte. -/
def function (bay : Bay M R W) (control : Control) : Bay M R W :=
  if bay.drive.isLoaded then
    let bay := if control.stepIn then bay.stepIn else bay
    let bay := if control.stepOut then bay.stepOut else bay
    match bay with
    | ⟨drive, site⟩ =>
      let drive := { drive with status := headCommands drive.status control }
      let drive :=
        if control.writeEnable then { drive.assert .writeEnable with writeCount := 0 } else drive
      ⟨drive, site⟩
  else bay

/-- Let the next sector come under the head, and show its number in the position register. -/
def nextSector (bay : Bay M R W) : UInt8 × Bay M R W :=
  if bay.drive.isLoaded then
    match bay.flush with
    | ⟨drive, site⟩ =>
      let sector := if Geometry.eightInch.sectors ≤ drive.sector then 0 else drive.sector
      (Position.encode (UInt8.ofNat sector) true,
        ⟨{ drive with
            sector := sector + 1
            offset := Geometry.eightInch.offset drive.track sector
            pointer := 0
            fetched := false }, site⟩)
  else (Position.noDisk, bay)

/-- Take a byte into the buffer. A write that runs past the buffer goes to its last byte. A sector's
worth of bytes since the last write-enable stores the sector and ends the transfer. -/
def writeByte (bay : Bay M R W) (byte : UInt8) : Bay M R W :=
  if bay.drive.isLoaded then
    match bay with
    | ⟨drive, site⟩ =>
      let pointer := min drive.pointer (bufferSize - 1)
      let drive := { drive with
        buffer := drive.buffer.setIfInBounds pointer byte
        pointer := pointer + 1
        dirty := true
        fetched := true
        writeCount := drive.writeCount + 1 }
      if drive.writeCount = sectorSize then
        match flush ⟨drive, site⟩ with
        | ⟨drive, site⟩ => ⟨{ drive.negate .writeEnable with writeCount := 0 }, site⟩
      else ⟨drive, site⟩
  else bay

/-- Fetch the sector under the head into the buffer. A failure is told to the operator; the bytes
delivered before it stay, and the sector will be fetched again. -/
def fetchSector (bay : Bay M R W) (medium : M) : Bay M R W :=
  match bay with
  | ⟨drive, site⟩ =>
    match Medium.fetch medium site drive.offset sectorSize with
    | ⟨delivered, .ok _, medium, site⟩ =>
      ⟨{ drive with
          buffer := .ofDelivered delivered, pointer := 0, fetched := true, medium := some medium },
        site⟩
    | ⟨delivered, .error cause, medium, site⟩ =>
      ⟨{ drive with buffer := .ofDelivered delivered, pointer := 0, medium := some medium },
        site.note [.readFailed drive.number drive.offset cause]⟩

/-- The next byte of the sector under the head. The pointer stops at the last byte of the buffer,
and there is no byte to read once writes have taken it past that. -/
def readByte (bay : Bay M R W) : Except Fault UInt8 × Bay M R W :=
  match bay.drive.medium with
  | none => (.ok noDiskByte, bay)
  | some medium =>
    match if bay.drive.fetched then bay else bay.fetchSector medium with
    | ⟨drive, site⟩ =>
      match drive.buffer[drive.pointer]? with
      | none => (.error .bufferOverrun, ⟨drive, site⟩)
      | some byte =>
        (.ok byte, ⟨{ drive with pointer := min (drive.pointer + 1) (bufferSize - 1) }, site⟩)

end Bay

end HardSector
