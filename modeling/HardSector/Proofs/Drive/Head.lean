import HardSector.Proofs.Drive.Panel

/-!
# The head of a drive

Steps take the head to the start of a track, and the sectors of the track come under it one
after the other. Nothing else that a drive does moves its head: neither reads and writes nor
flushes, whatever becomes of them on the medium.
-/

namespace HardSector

/-- Where the head of a drive is: the track, how many of its sectors have been counted, and the
offset of the sector under the head. -/
structure Head where
  track : Nat
  sector : Nat
  offset : Nat
deriving DecidableEq, Repr

/-- The head at the start of a track, with no sector counted. -/
def Head.atTrack (track : Nat) : Head := ⟨track, 0, Geometry.eightInch.trackOffset track⟩

/-- The head of a drive. -/
def Drive.head {M : Type} (drive : Drive M) : Head := ⟨drive.track, drive.sector, drive.offset⟩

/-- The panel of a drive shows where its head is. -/
theorem Drive.head_congr {M M' : Type} {drive : Drive M} {drive' : Drive M'}
    (hpanel : drive.panel = drive'.panel) : drive.head = drive'.head := by
  obtain ⟨-, htrack, hsector, -, -, hoffset, -⟩ := Panel.mk.inj hpanel
  unfold head
  rw [htrack, hsector, hoffset]

/-- Whether a control byte steps the head. -/
def Control.steps (control : Control) : Bool := control.stepIn || control.stepOut

namespace Bay

variable {M R W : Type} [Medium M R W] (bay : Bay M R W)

/-- A flush does not move the head. -/
@[simp] theorem head_flush : bay.flush.drive.head = bay.drive.head := by
  obtain ⟨_, htrack, hsector, _⟩ := bay.registers_flush
  unfold Drive.head
  rw [htrack, hsector, offset_flush]

/-- A read does not move the head. -/
theorem head_readByte : bay.readByte.2.drive.head = bay.drive.head := by
  rw [readByte_follow]
  exact Drive.head_congr bay.panel_read

/-- A write does not move the head, not even when it ends a transfer. -/
theorem head_writeByte (byte : UInt8) : (bay.writeByte byte).drive.head = bay.drive.head := by
  cases hloaded : bay.drive.isLoaded with
  | false => rw [(unloaded hloaded).2.2.1]
  | true =>
    rw [writeByte_eq byte hloaded]
    split
    · exact (bay.update (Drive.written byte)).head_flush
    · rfl

/-- The next sector is counted and comes under the head. -/
theorem head_nextSector {bay : Bay M R W} (hloaded : bay.drive.isLoaded = true) :
    bay.nextSector.2.drive.head =
      ⟨bay.drive.track, bay.drive.coming + 1,
        Geometry.eightInch.offset bay.drive.track bay.drive.coming⟩ := by
  obtain ⟨_, htrack, hsector, _⟩ := bay.registers_flush
  have hcoming : bay.flush.drive.coming = bay.drive.coming := by
    unfold Drive.coming
    rw [hsector]
  rw [nextSector_eq hloaded, ← htrack, ← hcoming]
  rfl

/-- A step in takes the head to the start of the next track, or again to that of the innermost. -/
theorem head_stepIn : bay.stepIn.drive.head = .atTrack (min (bay.drive.track + 1) 76) := by
  obtain ⟨_, htrack, _⟩ := bay.registers_flush
  rw [stepIn_eq, ← htrack]
  rfl

/-- A step out takes the head to the start of the track before, or again to that of track zero. -/
theorem head_stepOut : bay.stepOut.drive.head = .atTrack (bay.drive.track - 1) := by
  obtain ⟨_, htrack, _⟩ := bay.registers_flush
  rw [stepOut_eq, ← htrack]
  rfl

end Bay

end HardSector
