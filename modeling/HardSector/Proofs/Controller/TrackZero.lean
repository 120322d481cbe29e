import HardSector.Proofs.Controller.Operation
import HardSector.Proofs.Drive.Panel

/-!
# The track zero line

The status of a loaded drive tells whether its head is over track zero, whatever was done to
the drive and whatever disks were in it.
-/

namespace HardSector

/-- The status of the drive, if it is loaded, tells whether its head is over track zero. -/
def Drive.Honest {M : Type} (drive : Drive M) : Prop :=
  drive.isLoaded = true → drive.status.isAsserted .trackZero = decide (drive.track = 0)

namespace Drive

variable {M M' : Type} {drive : Drive M} {drive' : Drive M'}

/-- Whether a drive is honest is told by its panel. -/
theorem Honest.congr (h : drive.Honest) (hpanel : drive'.panel = drive.panel) : drive'.Honest := by
  obtain ⟨hloaded, htrack, -, hstatus, -, -, -⟩ := Panel.mk.inj hpanel
  unfold Honest
  rw [hloaded, htrack, hstatus]
  exact h

/-- Every move leaves the drive honest. -/
theorem Honest.move (h : drive.Honest) (move : Move) : (drive.move move).Honest := by
  intro hloaded
  have hstill : drive.isLoaded = true := by
    unfold isLoaded at hloaded ⊢
    rwa [medium_move] at hloaded
  have hbefore := h hstill
  cases move with
  | stepIn =>
    have hinner : min (drive.track + 1) Geometry.eightInch.lastTrack ≠ 0 := by
      rw [Geometry.eightInch_lastTrack]
      omega
    exact (Status.isAsserted_negate_self ..).trans (decide_eq_false hinner).symm
  | stepOut =>
    change (if drive.track - 1 = 0 then drive.status.assert .trackZero
      else drive.status).isAsserted .trackZero = decide (drive.track - 1 = 0)
    split
    · next hzero => rw [Status.isAsserted_assert_self, decide_eq_true hzero]
    · next hzero =>
      have htrack : drive.track ≠ 0 := by omega
      rw [hbefore, decide_eq_false hzero, decide_eq_false htrack]
  | obey control =>
    refine Eq.trans ?_ hbefore
    have hhead : (Bay.headCommands drive.status control).isAsserted .trackZero =
        drive.status.isAsserted .trackZero :=
      isAsserted_headCommands (by decide) (by decide) drive.status control
    change (if control.writeEnable then (Bay.headCommands drive.status control).assert .writeEnable
      else Bay.headCommands drive.status control).isAsserted .trackZero = _
    split
    · rw [Status.isAsserted_assert_of_ne _ (by decide), hhead]
    · exact hhead
  | complete => exact (Status.isAsserted_negate_of_ne _ (by decide)).trans hbefore
  | _ => exact hbefore

/-- An empty drive is honest. -/
theorem honest_empty (number : Nat) : ({ number := number } : Drive M).Honest := nofun

/-- A freshly loaded drive is honest. -/
theorem honest_holding (medium : M) (drive : Drive M) : (drive.holding medium).Honest := by
  have hloaded : Status.isAsserted .loaded .trackZero = true := by decide
  exact fun _ => hloaded

end Drive

namespace Bay

variable {M R W : Type} [Medium M R W] {bay : Bay M R W}

/-- A flush leaves the drive honest. -/
theorem honest_flush (h : bay.drive.Honest) : bay.flush.drive.Honest := by
  obtain ⟨_, htrack, _, hstatus⟩ := bay.registers_flush
  unfold Drive.Honest
  rw [isLoaded_flush, htrack, hstatus]
  exact h

/-- Motions leave the drive honest. -/
theorem honest_follow (h : bay.drive.Honest) (motions : List Motion) :
    (bay.follow motions).drive.Honest := by
  induction motions generalizing bay with
  | nil => exact h
  | cons motion motions ih =>
    refine ih ?_
    cases motion with
    | flush => exact honest_flush h
    | ready => exact h.congr bay.panel_ready
    | move move => exact h.move move

end Bay

namespace Controller

variable {M R W : Type}

/-- All drives of a controller are honest. -/
def Honest (h : Hosted (Controller M R) W) : Prop :=
  ∀ n : Fin driveCount, (bay h n).drive.Honest

/-- The drives of a new controller are honest. -/
theorem honest_fresh (shared : R) (base : UInt16) (host : W) :
    Honest (fresh (M := M) shared base host) :=
  all_fresh Drive.honest_empty shared base host

variable [Medium M R W]

/-- Drives stay honest. -/
theorem lasting_honest : Lasting (Drive.Honest (M := M)) R W where
  empty := Drive.honest_empty
  loaded := Drive.honest_holding
  flush := Bay.honest_flush
  obey _ hhonest := Bay.honest_follow hhonest _

/-- Every operation leaves the drives honest. -/
theorem Honest.perform {h : Hosted (Controller M R) W} (hh : Honest h) (op : Operation M) :
    Honest (perform h op).2 :=
  lasting_honest.perform hh op

end Controller

end HardSector
