import HardSector.Text.Hex

/-!
# The drive status register

The register is active-low: a line is asserted, that is true, when its bit is clear. A status is
kept exactly as the processor reads it, and its lines are set and tested by name.
-/

namespace HardSector

/-- A named line of the drive status register. -/
inductive StatusLine where
  | writeEnable
  | moveHead
  | headStatus
  | sectorTrue
  | interruptEnable
  | trackZero
  | readDataAvailable
deriving DecidableEq, Repr

namespace StatusLine

/-- All lines, from the lowest bit to the highest. -/
def all : List StatusLine :=
  [writeEnable, moveHead, headStatus, sectorTrue, interruptEnable, trackZero, readDataAvailable]

/-- The bit of a line. -/
def mask : StatusLine → UInt8
  | writeEnable => 0x01
  | moveHead => 0x02
  | headStatus => 0x04
  | sectorTrue => 0x08
  | interruptEnable => 0x20
  | trackZero => 0x40
  | readDataAvailable => 0x80

/-- The name of a line on the panel. -/
def label : StatusLine → String
  | writeEnable => "ENWD"
  | moveHead => "MH"
  | headStatus => "HS"
  | sectorTrue => "SECT"
  | interruptEnable => "INTE"
  | trackZero => "TRK0"
  | readDataAvailable => "NRDA"

/-- The line with a given name. -/
def ofLabel? (name : String) : Option StatusLine :=
  all.find? fun line => line.label == name

end StatusLine

/-- A drive status, as the processor reads it. -/
structure Status where
  bits : UInt8
deriving DecidableEq, Repr

namespace Status

/-- The status of a drive without a disk: head unloaded, not at track zero, no data. -/
def idle : Status := ⟨0xE7⟩

/-- Drive a line true by clearing its bit. -/
def assert (s : Status) (line : StatusLine) : Status := ⟨s.bits &&& ~~~line.mask⟩

/-- Drive a line false by setting its bit. -/
def negate (s : Status) (line : StatusLine) : Status := ⟨s.bits ||| line.mask⟩

/-- Drive a line to a given value. -/
def set (s : Status) (line : StatusLine) (value : Bool) : Status :=
  if value then s.assert line else s.negate line

/-- Whether a line is true. -/
def isAsserted (s : Status) (line : StatusLine) : Bool := s.bits &&& line.mask == 0

/-- The status of a freshly loaded disk: at track zero and at a sector, the head free to move. -/
def loaded : Status :=
  ((idle.assert .moveHead).assert .trackZero).assert .sectorTrue

/-- The register in hexadecimal with the names of its true lines. -/
def text (s : Status) : String :=
  let names := (StatusLine.all.filter s.isAsserted).map StatusLine.label
  Text.hex 2 s.bits.toNat ++ " [" ++ " ".intercalate names ++ "]"

@[simp] theorem loaded_bits : loaded.bits = 0xA5 := by decide

/-- Clearing the bit of one line spares the bit of another. -/
theorem not_mask_and_mask {line other : StatusLine} (hne : line ≠ other) :
    ~~~line.mask &&& other.mask = other.mask := by
  cases line <;> cases other <;> first | exact absurd rfl hne | decide

/-- Two lines do not share a bit. -/
theorem mask_and_mask {line other : StatusLine} (hne : line ≠ other) :
    line.mask &&& other.mask = 0 := by
  cases line <;> cases other <;> first | exact absurd rfl hne | decide

/-- Masking distributes over setting bits. -/
theorem or_and_mask (bits set mask : UInt8) :
    (bits ||| set) &&& mask = (bits &&& mask) ||| (set &&& mask) := by
  apply UInt8.toBitVec_inj.mp
  ext i
  simp [Bool.and_or_distrib_right]

/-- Every line has a bit. -/
theorem mask_ne_zero (line : StatusLine) : line.mask ≠ 0 := by
  cases line <;> decide

/-- An asserted line is true. -/
@[simp] theorem isAsserted_assert_self (s : Status) (line : StatusLine) :
    (s.assert line).isAsserted line = true := by
  simp [isAsserted, assert, UInt8.and_assoc]

/-- A negated line is false. -/
@[simp] theorem isAsserted_negate_self (s : Status) (line : StatusLine) :
    (s.negate line).isAsserted line = false := by
  simp [isAsserted, negate, or_and_mask, mask_ne_zero]

/-- Asserting a line leaves the others as they were. -/
theorem isAsserted_assert_of_ne (s : Status) {line other : StatusLine} (hne : line ≠ other) :
    (s.assert line).isAsserted other = s.isAsserted other := by
  simp [isAsserted, assert, UInt8.and_assoc, not_mask_and_mask hne]

/-- Negating a line leaves the others as they were. -/
theorem isAsserted_negate_of_ne (s : Status) {line other : StatusLine} (hne : line ≠ other) :
    (s.negate line).isAsserted other = s.isAsserted other := by
  simp [isAsserted, negate, or_and_mask, mask_and_mask hne]

end Status

end HardSector
