import HardSector.Geometry
import HardSector.Text.Blank
import HardSector.Text.Split
import HardSector.Text.Unsigned

/-!
# Sector addresses

A sector address is written as a track and a sector with a colon between them. Blanks may surround
either number, and both must lie on the disk.
-/

namespace HardSector

/-- A track and a sector of the disk. -/
structure SectorAddress where
  track : UInt8
  sector : UInt8
deriving DecidableEq, Repr

namespace SectorAddress

/-- Why a text is no sector address. -/
inductive Failure where
  | noColon
  | badTrack (text : String)
  | badSector (text : String)
  | offDisk (track sector : Nat)
deriving DecidableEq, Repr

/-- The text of a failure. -/
def Failure.message : Failure → String
  | noColon => "Expected track:sector"
  | badTrack text => s!"Invalid track: {text}"
  | badSector text => s!"Invalid sector: {text}"
  | offDisk track sector => s!"Sector {track}:{sector} is not on the disk"

/-- A number of eight bits, between blanks. -/
def readByte (cs : List Char) : Option Nat := Text.readUnsigned 256 (Text.trim cs)

/-- The sector address that a list of characters denotes. -/
def ofChars (cs : List Char) : Except Failure SectorAddress :=
  match Text.splitOnce ':' cs with
  | none => .error .noColon
  | some (left, right) =>
    match readByte left with
    | none => .error (.badTrack (String.ofList left))
    | some track =>
      match readByte right with
      | none => .error (.badSector (String.ofList right))
      | some sector =>
        if Geometry.eightInch.contains track sector then
          .ok ⟨UInt8.ofNat track, UInt8.ofNat sector⟩
        else .error (.offDisk track sector)

/-- The sector address that a text denotes. -/
def ofText (text : String) : Except Failure SectorAddress := ofChars text.toList

/-- A sector address as text. -/
def text (address : SectorAddress) : String := s!"{address.track}:{address.sector}"

end SectorAddress

end HardSector
