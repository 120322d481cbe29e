import HardSector.Decimal

/-!
# Byte counts for people

Counts below a kilobyte are written in bytes; larger ones in kilobytes with one decimal place,
followed by the exact count.
-/

namespace HardSector

/-- A byte count in the units used for disk images. -/
def sizeText (bytes : UInt64) : String :=
  if bytes < 1024 then s!"{bytes} bytes"
  else s!"{Decimal.fixed 1 (bytes.toFloat / 1024)}K ({bytes} bytes)"

end HardSector
