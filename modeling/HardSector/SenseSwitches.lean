import HardSector.Device

/-!
# Front panel sense switches

Eight switches that the processor reads as one byte. Writes to them are ignored.
-/

namespace HardSector

/-- The positions of the sense switches, one a bit. -/
structure SenseSwitches where
  value : UInt8 := 0
deriving DecidableEq, Repr

namespace SenseSwitches

/-- The address of the switches. -/
def address : UInt16 := 0xFF

instance {W : Type} : Device SenseSwitches W where
  addresses _ := [("Front Panel Sense Switches", address)]
  read h _ := (.ok h.device.value, h)

end SenseSwitches

end HardSector
