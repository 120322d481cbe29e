import HardSector.Proofs.Drive.Motion

/-!
# The panel of a drive

The panel of a drive is what can be told of it without reading from its disk. A flush, a
fetch and every move take drives with equal panels to drives with equal panels, whatever is
on their disks and whether these can be read and written at all.
-/

namespace HardSector

/-- What a drive shows apart from the bytes of its disk: whether there is one, where the head is,
the status, how many bytes were written since the last write-enable, and whether something is
pending, and where. -/
structure Panel where
  loaded : Bool
  track : Nat
  sector : Nat
  status : Status
  writeCount : Nat
  offset : Nat
  dirty : Bool
deriving DecidableEq, Repr

/-- The panel of a drive. -/
def Drive.panel {M : Type} (drive : Drive M) : Panel where
  loaded := drive.isLoaded
  track := drive.track
  sector := drive.sector
  status := drive.status
  writeCount := drive.writeCount
  offset := drive.offset
  dirty := drive.dirty

/-! ## Drives -/

namespace Drive

variable {M M' : Type} {drive : Drive M} {drive' : Drive M'}

/-- A move takes equal panels to equal panels. -/
theorem panel_move (hpanel : drive.panel = drive'.panel) (move : Move) :
    (drive.move move).panel = (drive'.move move).panel := by
  obtain ⟨hloaded, htrack, hsector, hstatus, hcount, hoffset, hdirty⟩ := Panel.mk.inj hpanel
  have hcoming : drive.coming = drive'.coming := by
    unfold coming
    rw [hsector]
  have hstill (drive : Drive M) : (drive.move move).isLoaded = drive.isLoaded := by
    cases move <;> rfl
  have hstill' (drive : Drive M') : (drive.move move).isLoaded = drive.isLoaded := by
    cases move <;> rfl
  unfold panel
  rw [hstill, hstill', hloaded]
  cases move <;>
    simp only [Drive.move, steppedIn, steppedOut, seekTo, negate, commanded, advanced, written,
      completed, passed, htrack, hsector, hstatus, hcount, hoffset, hdirty, hcoming]

end Drive

/-! ## Bays -/

namespace Bay

variable {M R W M' R' W' : Type} [Medium M R W] [Medium M' R' W'] {bay : Bay M R W}
  {bay' : Bay M' R' W'}

/-- After a flush nothing is pending, and the panel shows nothing else of it. -/
theorem panel_flush (bay : Bay M R W) :
    bay.flush.drive.panel = { bay.drive.panel with dirty := false } := by
  obtain ⟨medium, hdrive, hsome⟩ := bay.flush_drive
  have hloaded : ({ bay.drive.flushed with medium := medium } : Drive M).isLoaded =
      bay.drive.isLoaded := hsome
  unfold Drive.panel
  rw [hdrive, hloaded]
  unfold Drive.flushed
  split
  · rfl
  · next hclean => simp only [Bool.eq_false_iff.mpr hclean]

/-- The panel shows nothing of a fetch, whether it succeeds or fails. -/
theorem panel_ready (bay : Bay M R W) : bay.ready.drive.panel = bay.drive.panel := by
  cases hloaded : bay.drive.isLoaded with
  | false => rw [ready_of_unloaded hloaded]
  | true =>
    cases hfetched : bay.drive.fetched with
    | true => rw [ready_of_fetched hfetched]
    | false =>
      obtain ⟨buffer, complete, medium, hdrive⟩ := ready_drive hloaded hfetched
      unfold Drive.panel
      rw [hdrive, hloaded]
      rfl

/-- A motion takes equal panels to equal panels. -/
theorem panel_make (hpanel : bay.drive.panel = bay'.drive.panel) (motion : Motion) :
    (bay.make motion).drive.panel = (bay'.make motion).drive.panel := by
  cases motion with
  | flush =>
    change bay.flush.drive.panel = bay'.flush.drive.panel
    rw [panel_flush, panel_flush, hpanel]
  | ready =>
    change bay.ready.drive.panel = bay'.ready.drive.panel
    rw [panel_ready, panel_ready, hpanel]
  | move move => exact Drive.panel_move hpanel move

/-- Motions one after another take equal panels to equal panels. -/
theorem panel_follow (hpanel : bay.drive.panel = bay'.drive.panel) (motions : List Motion) :
    (bay.follow motions).drive.panel = (bay'.follow motions).drive.panel := by
  induction motions generalizing bay bay' with
  | nil => exact hpanel
  | cons motion motions ih => exact ih (panel_make hpanel motion)

/-- The panel shows nothing of a read, whether there is a byte or not. -/
theorem panel_read (bay : Bay M R W) :
    (bay.follow bay.drive.readMotions).drive.panel = bay.drive.panel := by
  have hpass (bay : Bay M R W) : (bay.make (.move .pass)).drive.panel = bay.drive.panel := rfl
  unfold Drive.readMotions
  split
  · split
    · exact bay.panel_ready
    · exact (hpass bay.ready).trans bay.panel_ready
  · rfl

end Bay

end HardSector
