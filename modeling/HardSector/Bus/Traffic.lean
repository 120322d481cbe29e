/-!
# Traffic at an I/O address

What has passed at an address: the bytes last read and written, how often each happened, and whether
a device answered the first access.
-/

namespace HardSector

/-- What has passed at one address. -/
structure Traffic where
  answered : Bool
  lastRead : UInt8 := 0
  lastWrite : UInt8 := 0
  reads : Nat := 0
  writes : Nat := 0
deriving DecidableEq, Repr

namespace Traffic

/-- The traffic after a read of a byte. `answered` counts for the first access only. -/
def afterRead (traffic : Option Traffic) (answered : Bool) (byte : UInt8) : Traffic :=
  let traffic := traffic.getD { answered := answered }
  { traffic with lastRead := byte, reads := traffic.reads + 1 }

/-- The traffic after a write of a byte. `answered` counts for the first access only. -/
def afterWrite (traffic : Option Traffic) (answered : Bool) (byte : UInt8) : Traffic :=
  let traffic := traffic.getD { answered := answered }
  { traffic with lastWrite := byte, writes := traffic.writes + 1 }

end Traffic

end HardSector
