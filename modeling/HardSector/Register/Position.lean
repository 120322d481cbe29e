/-!
# The sector position register

The register shows the number of the sector under the head in bits 1 to 5. Bits 6 and 7 always
read as one, and bit 0 is low while the head is at the start of the sector.
-/

namespace HardSector.Position

/-- The bits that always read as one. -/
def fixedBits : UInt8 := 0xC0

/-- What the register reads while there is no disk in the drive. -/
def noDisk : UInt8 := fixedBits

/-- The register for a sector, with the head at its start or not. -/
def encode (sector : UInt8) (atStart : Bool) : UInt8 :=
  fixedBits ||| ((sector &&& 0x1F) <<< 1) ||| (if atStart then 0 else 1)

/-- Whether the register shows the start of a sector. -/
def atStart (register : UInt8) : Bool := register &&& 0x01 == 0

/-- The sector that the register shows. -/
def sector (register : UInt8) : UInt8 := (register >>> 1) &&& 0x1F

/-- The register shows the sector it was encoded from, for the sectors of a track. -/
theorem sector_encode {s : Nat} (hs : s < 32) (start : Bool) :
    sector (encode (UInt8.ofNat s) start) = UInt8.ofNat s := by
  have hall : ∀ k : Fin 32, ∀ b : Bool, sector (encode (UInt8.ofNat k) b) = UInt8.ofNat k := by
    decide
  exact hall ⟨s, hs⟩ start

/-- The register tells whether the head is at the start of a sector. -/
theorem atStart_encode {s : Nat} (hs : s < 32) (start : Bool) :
    atStart (encode (UInt8.ofNat s) start) = start := by
  have hall : ∀ k : Fin 32, ∀ b : Bool, atStart (encode (UInt8.ofNat k) b) = b := by decide
  exact hall ⟨s, hs⟩ start

end HardSector.Position
