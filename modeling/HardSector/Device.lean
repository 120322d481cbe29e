import HardSector.Drive

/-!
# Devices at I/O addresses

A device answers reads and writes at the I/O addresses it lists. Unless it says otherwise, a read
gives the byte of an unconnected line and a write does nothing.
-/

namespace HardSector

/-- The byte read where nothing answers. -/
def openLine : UInt8 := 0xFF

/-- A device amid its host, with the notices raised so far, oldest first. -/
structure Hosted (D W : Type) where
  device : D
  host : W
  notices : List Notice := []

/-- Add notices to those of a hosted device. -/
def Hosted.note {D W : Type} (h : Hosted D W) (notices : List Notice) : Hosted D W :=
  { h with notices := h.notices ++ notices }

/-- Devices of type `D` on a host `W`. -/
class Device (D W : Type) where
  /-- The addresses at which the device answers, each with a description. -/
  addresses : D → List (String × UInt16)
  /-- The answer to a read. -/
  read : Hosted D W → UInt16 → Except Fault UInt8 × Hosted D W := fun h _ => (.ok openLine, h)
  /-- The effect of a write. -/
  write : Hosted D W → UInt16 → UInt8 → Except Fault Unit × Hosted D W := fun h _ _ => (.ok (), h)

/-- A device that lists addresses and leaves the rest unsaid. -/
structure SilentDevice where
  addresses : List (String × UInt16) := []

instance {W : Type} : Device SilentDevice W where
  addresses := SilentDevice.addresses

end HardSector
