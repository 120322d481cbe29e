import HardSector.Proofs.Drive.Writing

/-!
# The lines that stay

Commands move the lines of writing, of the head, of track zero and of the data. The other lines
stay as they were when the drive was loaded, and so does the bit that belongs to no line.
-/

namespace HardSector

namespace Status

/-- The bits that no command moves: those of three lines, and the one that belongs to no line. -/
def standing (s : Status) : UInt8 := s.bits &&& 0x3A

/-- Asserting a line that commands move leaves the standing bits alone. -/
theorem standing_assert (s : Status) {line : StatusLine} (hmoves : line.mask &&& 0x3A = 0) :
    (s.assert line).standing = s.standing := by
  have hspared : ~~~line.mask &&& 0x3A = (0x3A : UInt8) := by
    cases line <;> first | decide | exact absurd hmoves (by decide)
  unfold standing assert
  rw [UInt8.and_assoc, hspared]

/-- Negating a line that commands move leaves the standing bits alone. -/
theorem standing_negate (s : Status) {line : StatusLine} (hmoves : line.mask &&& 0x3A = 0) :
    (s.negate line).standing = s.standing := by
  unfold standing negate
  rw [or_and_mask, hmoves, UInt8.or_zero]

/-- What the standing bits tell of the bits of a mask among them. -/
theorem bits_and_of_standing {mask : UInt8} (hstays : 0x3A &&& mask = mask) (s : Status) :
    s.bits &&& mask = s.standing &&& mask := by
  rw [standing, UInt8.and_assoc, hstays]

end Status

namespace Drive

variable {M : Type}

/-- Commands to the head leave the standing bits alone. -/
theorem standing_headCommands (status : Status) (control : Control) :
    (Bay.headCommands status control).standing = status.standing := by
  have hload : ((status.assert .headStatus).assert .readDataAvailable).standing =
      status.standing := by
    rw [Status.standing_assert _ (by decide), Status.standing_assert _ (by decide)]
  unfold Bay.headCommands
  cases control.headLoad <;> cases control.headUnload <;>
    simp only [if_true, Bool.false_eq_true, if_false, hload,
      Status.standing_negate _ (show StatusLine.headStatus.mask &&& 0x3A = 0 by decide)]

/-- Every move leaves the standing bits alone. -/
theorem standing_move (move : Move) (drive : Drive M) :
    (drive.move move).status.standing = drive.status.standing := by
  cases move with
  | stepIn => exact Status.standing_negate _ (by decide)
  | stepOut =>
    change (if drive.track - 1 = 0 then drive.status.assert .trackZero
      else drive.status).standing = drive.status.standing
    split
    · exact Status.standing_assert _ (by decide)
    · rfl
  | obey control =>
    have hhead := standing_headCommands drive.status control
    change (if control.writeEnable then (Bay.headCommands drive.status control).assert .writeEnable
      else Bay.headCommands drive.status control).standing = _
    split
    · rw [Status.standing_assert _ (by decide), hhead]
    · exact hhead
  | complete => exact Status.standing_negate _ (by decide)
  | _ => rfl

end Drive

namespace Bay

variable {M R W : Type} [Medium M R W]

/-- A flush leaves the standing bits alone. -/
theorem standing_flush (bay : Bay M R W) :
    bay.flush.drive.status.standing = bay.drive.status.standing := by
  obtain ⟨_, _, _, hstatus⟩ := bay.registers_flush
  rw [hstatus]

/-- Motions leave the standing bits alone. -/
theorem standing_follow (bay : Bay M R W) (motions : List Motion) :
    (bay.follow motions).drive.status.standing = bay.drive.status.standing := by
  induction motions generalizing bay with
  | nil => rfl
  | cons motion motions ih =>
    rw [follow_cons, ih]
    cases motion with
    | flush => exact bay.standing_flush
    | ready => exact congrArg (fun panel => panel.status.standing) bay.panel_ready
    | move move => exact Drive.standing_move move bay.drive

end Bay

end HardSector
