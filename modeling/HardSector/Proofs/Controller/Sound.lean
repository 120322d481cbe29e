import HardSector.Proofs.Controller.Operation
import HardSector.Proofs.Drive.Sound

/-!
# Accesses that cannot be carried out

All drives of a controller stay sound, whatever media are put into them and however these
fail. It follows which accesses cannot be carried out at all: exactly the reads of a drive
whose pointer a write has taken past the buffer.
-/

namespace HardSector.Controller

variable {M R W : Type}

/-- All drives of a controller are sound. -/
def Sound (h : Hosted (Controller M R) W) : Prop :=
  ∀ n : Fin driveCount, (bay h n).drive.Sound

/-- The drives of a new controller are sound. -/
theorem sound_fresh (shared : R) (base : UInt16) (host : W) :
    Sound (fresh (M := M) shared base host) :=
  all_fresh Drive.sound_empty shared base host

/-- Something done to a bay keeps the drives sound if it keeps the drive there sound. -/
theorem Sound.onBay {h : Hosted (Controller M R) W} (hsound : Sound h) {n : Fin driveCount}
    {act : Bay M R W → Bay M R W} (hact : (act (bay h n)).drive.Sound) :
    Sound (onBay n act h) :=
  all_onBay hsound hact

variable [Medium M R W]

/-- The motions of a command leave a sound drive sound. -/
theorem soundAlong_motions {bay : Bay M R W} (hsound : bay.drive.Sound) (command : Command) :
    bay.SoundAlong (command.motions bay.drive) := by
  cases command with
  | function byte => exact Bay.soundAlong_function hsound _
  | sector => exact Bay.soundAlong_sector hsound
  | read => exact Bay.soundAlong_read hsound
  | write byte => exact Bay.soundAlong_write hsound byte
  | _ => trivial

/-- What every motion of a list keeps, the motions one after another keep. -/
theorem follow_induct {P : Hosted (Controller M R) W → Prop} {n : Fin driveCount}
    {motions : List Motion} {h : Hosted (Controller M R) W}
    (hmake : ∀ h, ∀ motion ∈ motions, P h → ((bay h n).make motion).drive.Sound →
      P (onBay n (fun bay => bay.make motion) h))
    (halong : (bay h n).SoundAlong motions) (hP : P h) :
    P (onBay n (fun bay => bay.follow motions) h) := by
  induction motions generalizing h with
  | nil =>
    rw [onBay_of_eq rfl]
    exact hP
  | cons motion motions ih =>
    have hnext := hmake h motion List.mem_cons_self hP halong.1
    rw [onBay_follow_cons]
    refine ih (fun h m hm => hmake h m (List.mem_cons_of_mem _ hm)) ?_ hnext
    rw [bay_onBay_self]
    exact halong.2

/-- Drives stay sound. -/
theorem lasting_sound : Lasting (Drive.Sound (M := M)) R W where
  empty := Drive.sound_empty
  loaded := Drive.sound_holding
  flush := Bay.sound_flush
  obey command hsound := Bay.sound_follow hsound (soundAlong_motions hsound command)

/-- An operation keeps the drives sound. -/
theorem Sound.perform {h : Hosted (Controller M R) W} (hsound : Sound h) (op : Operation M) :
    Sound (perform h op).2 :=
  lasting_sound.perform hsound op

/-- The drives are sound after every run of a new controller. -/
theorem sound_after (shared : R) (base : UInt16) (host : W) (ops : List (Operation M)) :
    Sound (after (fresh shared base host) ops) :=
  lasting_sound.after shared base host ops

/-- For every kind of media and after every run, a command cannot be carried out exactly if it is a
read and the pointer of the selected drive has left the buffer. -/
theorem obey_faults_iff (shared : R) (base : UInt16) (host : W) (ops : List (Operation M))
    (command : Command) :
    let h := after (fresh shared base host) ops
    (∃ cause, (obey h command).1 = .fault cause) ↔
      command = .read ∧ h.device.selectedDrive.pointer = bufferSize := by
  intro h
  have hsound : (bay h h.device.selected).drive.Sound := sound_after shared base host ops _
  cases command with
  | read =>
    have hreply : (obey h .read).1 = .ofResult (bay h h.device.selected).readByte.1 := rfl
    have hpointer : h.device.selectedDrive.pointer = (bay h h.device.selected).drive.pointer := rfl
    rw [hreply, hpointer]
    rcases Bay.readByte_cases hsound with ⟨hout, hread⟩ | ⟨hin, byte, hread⟩
    · rw [hread]
      exact ⟨fun _ => ⟨rfl, hout⟩, fun _ => ⟨_, rfl⟩⟩
    · rw [hread]
      refine ⟨?_, fun hout => absurd hout.2 hin⟩
      rintro ⟨cause, hcause⟩
      cases hcause
  | _ =>
    refine ⟨?_, fun hread => nomatch hread.1⟩
    rintro ⟨cause, hcause⟩
    cases hcause

/-- A read after a write behind the last byte of the buffer cannot be carried out: reading a sector
leaves the pointer at that byte, and one written byte takes it past the buffer. -/
theorem read_behind_buffer_faults :
    let h := (perform (fresh (PatchPool.ofCapacity 0) defaultBase ())
      (.load 0 { image := #[] : CopyOnWrite })).2
    (obey (afterCommands h (List.replicate 138 .read ++ [.write 0])) .read).1 =
      .fault .bufferOverrun := by
  decide +kernel

end HardSector.Controller
