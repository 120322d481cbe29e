import HardSector.Drive

/-!
# I/O spaces

What a program sees of the devices: bytes that it reads and writes at I/O addresses. An access may
change what later accesses find, and may fail altogether.
-/

namespace HardSector

/-- States that answer reads and take writes at I/O addresses. -/
class IoSpace (S : Type) where
  /-- The byte at an address. -/
  read : S → UInt16 → Except Fault UInt8 × S
  /-- Put a byte at an address. -/
  write : S → UInt16 → UInt8 → Except Fault Unit × S

end HardSector
