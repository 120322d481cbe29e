/-!
# Geometry of a hard-sectored disk

A flat disk image holds the tracks of a single head one after the other, each a row of sectors of
one size. Offsets, sector numbers within the image and bounds follow from three numbers.
-/

namespace HardSector

/-- The number of bytes in a sector. -/
abbrev sectorSize : Nat := 137

/-- How the sectors of a disk are laid out in a flat image. -/
structure Geometry where
  tracks : Nat
  sectors : Nat
  size : Nat
deriving DecidableEq, Repr

namespace Geometry

/-- The standard eight-inch disk. -/
def eightInch : Geometry := ⟨77, 32, sectorSize⟩

/-- The innermost track. -/
def lastTrack (g : Geometry) : Nat := g.tracks - 1

/-- The number of bytes in a track. -/
def trackSize (g : Geometry) : Nat := g.sectors * g.size

/-- The number of bytes in an image of the whole disk. -/
def diskSize (g : Geometry) : Nat := g.tracks * g.trackSize

/-- The offset at which a track begins. -/
def trackOffset (g : Geometry) (track : Nat) : Nat := track * g.trackSize

/-- The offset at which a sector begins. -/
def offset (g : Geometry) (track sector : Nat) : Nat := g.trackOffset track + sector * g.size

/-- The number, counted from the start of the image, of the sector that holds an offset. -/
def sectorIndex (g : Geometry) (offset : Nat) : UInt16 := UInt16.ofNat (offset / g.size)

/-- Whether a track and a sector exist on the disk. -/
def contains (g : Geometry) (track sector : Nat) : Bool :=
  decide (track < g.tracks) && decide (sector < g.sectors)

/-- A number in a field of two columns, flush right. -/
def twoColumns (n : Nat) : String :=
  String.ofList ((toString n).toList.leftpad 2 ' ')

/-- The three numbers, for people. -/
def text (g : Geometry) : String :=
  s!"[t:{twoColumns g.tracks} s:{twoColumns g.sectors} size:{g.size}]"

@[simp] theorem eightInch_tracks : eightInch.tracks = 77 := rfl
@[simp] theorem eightInch_sectors : eightInch.sectors = 32 := rfl
@[simp] theorem eightInch_size : eightInch.size = 137 := rfl
@[simp] theorem eightInch_lastTrack : eightInch.lastTrack = 76 := rfl
@[simp] theorem eightInch_trackSize : eightInch.trackSize = 4384 := rfl
@[simp] theorem eightInch_diskSize : eightInch.diskSize = 337568 := rfl

/-- The first sector of a track begins where the track does. -/
@[simp] theorem offset_zero (g : Geometry) (track : Nat) :
    g.offset track 0 = g.trackOffset track := by
  simp [offset]

/-- The offset of a sector, in numbers. -/
theorem eightInch_offset (track sector : Nat) :
    eightInch.offset track sector = track * 4384 + sector * 137 := rfl

/-- Sectors are numbered track by track. -/
theorem sectorIndex_offset (track sector : Nat) :
    eightInch.sectorIndex (eightInch.offset track sector) = UInt16.ofNat (track * 32 + sector) := by
  unfold sectorIndex
  rw [eightInch_offset, eightInch_size]
  congr 1
  omega

end Geometry

end HardSector
