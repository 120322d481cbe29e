import HardSector.Medium.InPlace
import HardSector.Proofs.Controller.Operation
import HardSector.Proofs.Drive.Panel

/-!
# What disks cannot change

Two controllers that start with the same selection and equal panels keep them equal through
all commands, and answer alike but for the bytes that are read. What is on the disks, and
which accesses to them fail, does not come into it.
-/

namespace HardSector

/-- Which motions a command makes is told by the panel, but for a read. -/
theorem Command.motions_congr {M M' : Type} {drive : Drive M} {drive' : Drive M'}
    (hpanel : drive.panel = drive'.panel) {command : Command}
    (hread : command ≠ .read) : command.motions drive = command.motions drive' := by
  obtain ⟨hloaded, -, -, -, hcount, -, -⟩ := Panel.mk.inj hpanel
  cases command with
  | read => exact absurd rfl hread
  | function byte =>
    unfold motions Drive.functionMotions
    rw [hloaded]
  | sector =>
    unfold motions Drive.sectorMotions
    rw [hloaded]
  | write byte =>
    unfold motions Drive.writeMotions
    rw [hloaded, hcount]
  | _ => rfl

namespace Controller

variable {M R W M' R' W' : Type}

/-- Two controllers that cannot be told apart without reading from a disk. -/
structure Alike (h : Hosted (Controller M R) W) (h' : Hosted (Controller M' R') W') : Prop where
  selected : h.device.selected = h'.device.selected
  panel : ∀ n, (bay h n).drive.panel = (bay h' n).drive.panel

namespace Alike

variable {h : Hosted (Controller M R) W} {h' : Hosted (Controller M' R') W'}

/-- What takes the panels of one drive to equal ones leaves the controllers alike. -/
theorem onBay (ha : Alike h h') (n : Fin driveCount) {act : Bay M R W → Bay M R W}
    {act' : Bay M' R' W' → Bay M' R' W'}
    (hact : (act (bay h n)).drive.panel = (act' (bay h' n)).drive.panel) :
    Alike (onBay n act h) (onBay n act' h') := by
  refine ⟨ha.selected, fun m => ?_⟩
  rw [drive_onBay, drive_onBay]
  split
  · exact hact
  · exact ha.panel m

variable [Medium M R W] [Medium M' R' W']

/-- Flushing all drives leaves the controllers alike. -/
theorem flushAll (ha : Alike h h') : Alike (flushAll h) (flushAll h') := by
  unfold Controller.flushAll
  generalize List.finRange driveCount = order
  induction order generalizing h h' with
  | nil => exact ha
  | cons n order ih => exact ih (ha.onBay n (Bay.panel_make (ha.panel n) .flush))

/-- A command leaves the controllers alike, and is answered alike unless it reads a byte. -/
theorem obey (ha : Alike h h') (command : Command) :
    Alike (obey h command).2 (obey h' command).2 ∧
      (command ≠ .read → (Controller.obey h command).1 = (Controller.obey h' command).1) := by
  have hpanel : h.device.selectedDrive.panel = h'.device.selectedDrive.panel := by
    have hselected := ha.panel h.device.selected
    rw [show (bay h' h.device.selected).drive = h'.device.selectedDrive by
      rw [ha.selected]; rfl] at hselected
    exact hselected
  constructor
  · have hfollow (hread : command ≠ .read) :
        Alike
          (HardSector.Controller.onBay h.device.selected
            (fun bay => bay.follow (command.motions h.device.selectedDrive)) h)
          (HardSector.Controller.onBay h'.device.selected
            (fun bay => bay.follow (command.motions h'.device.selectedDrive)) h') := by
      rw [Command.motions_congr hpanel hread, ha.selected]
      exact ha.onBay _ (Bay.panel_follow (ha.panel _) _)
    rw [obey_eq, obey_eq]
    cases command with
    | select byte => exact ⟨rfl, ha.panel⟩
    | status => exact ha
    | flush => exact ha.flushAll
    | read =>
      -- The motions of the two reads may differ, but none of them shows.
      have hread := (bay h h'.device.selected).panel_read.trans
        ((ha.panel _).trans (bay h' h'.device.selected).panel_read.symm)
      change Alike
        (HardSector.Controller.onBay h.device.selected
          (fun bay => bay.follow h.device.selectedDrive.readMotions) h)
        (HardSector.Controller.onBay h'.device.selected
          (fun bay => bay.follow h'.device.selectedDrive.readMotions) h')
      rw [show h.device.selectedDrive = (bay h h.device.selected).drive from rfl, ha.selected]
      exact ha.onBay _ hread
    | _ => exact hfollow nofun
  · intro hread
    cases command with
    | status => exact congrArg (fun panel => Reply.byte panel.status.bits) hpanel
    | sector =>
      change Reply.byte (bay h h.device.selected).nextSector.1 =
        .byte (bay h' h'.device.selected).nextSector.1
      have hloaded : (bay h h.device.selected).drive.isLoaded =
          (bay h' h'.device.selected).drive.isLoaded := congrArg Panel.loaded hpanel
      cases hcase : (bay h h.device.selected).drive.isLoaded with
      | false =>
        rw [(Bay.unloaded hcase).2.1, (Bay.unloaded (hloaded.symm.trans hcase)).2.1]
      | true =>
        rw [Bay.nextSector_eq hcase, Bay.nextSector_eq (hloaded.symm.trans hcase)]
        have hsector : (bay h h.device.selected).drive.sector =
            (bay h' h'.device.selected).drive.sector := congrArg Panel.sector hpanel
        unfold Drive.coming
        rw [hsector]
    | read => exact absurd rfl hread
    | _ => rfl

/-- Commands one after another leave the controllers alike. -/
theorem afterCommands (ha : Alike h h') (commands : List Command) :
    Alike (afterCommands h commands) (afterCommands h' commands) := by
  induction commands generalizing h h' with
  | nil => exact ha
  | cons command commands ih => exact ih (ha.obey command).1

end Alike

variable [Medium M R W] [Medium M' R' W']

/-- Registers never depend on disks. Take two controllers with the same selection and equal panels,
over media of any kinds, with any contents, that fail in any way. After the same commands, whatever
these are, the selection and the panel of every drive are still the same, and the next command is
answered alike unless it reads a byte. -/
theorem registers_independent_of_media (h : Hosted (Controller M R) W)
    (h' : Hosted (Controller M' R') W') (hselected : h.device.selected = h'.device.selected)
    (hpanel : ∀ n, (bay h n).drive.panel = (bay h' n).drive.panel) (commands : List Command) :
    (afterCommands h commands).device.selected = (afterCommands h' commands).device.selected ∧
      (∀ n, (bay (afterCommands h commands) n).drive.panel =
        (bay (afterCommands h' commands) n).drive.panel) ∧
      ∀ command, command ≠ .read →
        (obey (afterCommands h commands) command).1 =
          (obey (afterCommands h' commands) command).1 := by
  have ha : Alike h h' := ⟨hselected, hpanel⟩
  have hlast := ha.afterCommands commands
  exact ⟨hlast.selected, hlast.panel, fun command hread => (hlast.obey command).2 hread⟩

/-- An image of three bytes and a stream on which the first read and every seek after it fail: the
pointers and what is read come apart, and the registers do not. -/
theorem registers_independent_of_a_failing_stream :
    let h := (perform (fresh (PatchPool.ofCapacity 0) 8 ())
      (.load 0 { image := #[1, 2, 3] : CopyOnWrite })).2
    let stream : Stream :=
      { contents := #[7, 8]
        script := { reads := [.fail "read"], seeks := [.proceed, .fail "seek"] } }
    let h' := (perform (fresh () 8 ())
      (.load 0 { handle := stream, length := 2 : InPlace Stream })).2
    let commands : List Command := [.sector, .read, .read, .read]
    (bay (afterCommands h commands) 0).drive.pointer = 3 ∧
      (bay (afterCommands h' commands) 0).drive.pointer = 1 ∧
      (obey (afterCommands h [.sector]) .read).1 ≠ (obey (afterCommands h' [.sector]) .read).1 ∧
      ∀ n, (bay (afterCommands h (commands ++ [.write 5, .sector])) n).drive.panel =
        (bay (afterCommands h' (commands ++ [.write 5, .sector])) n).drive.panel := by
  intro h stream h' commands
  refine ⟨by decide +kernel, by decide +kernel, by decide +kernel, ?_⟩
  exact (registers_independent_of_media h h' (by decide +kernel) (by decide +kernel) _).2.1

end Controller

end HardSector
