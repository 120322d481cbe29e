import HardSector.Proofs.Controller.Positioning
import HardSector.Proofs.Controller.Received

/-!
# Where commands lead the head

The head of a loaded drive is where the commands have led it that the drive has received
since its medium was put in. The step bits of its control bytes, one after the other, give
the track. The sectors that have come since the last step, counted round the track, give the
sector. Nothing else matters: no transfer, no flush, and nothing that is done to other drives.
-/

namespace HardSector

/-! ## The way of the head -/

/-- The commands of a control byte. -/
def Command.control? : Command → Option Control
  | .function byte => some (.ofByte byte)
  | _ => none

/-- Whether a command steps the head. -/
def Command.steps : Command → Bool
  | .function byte => (Control.ofByte byte).steps
  | _ => false

/-- The track to which the step bits of control bytes lead from track zero. -/
def trackOf (commands : List Command) : Nat :=
  (commands.filterMap Command.control?).foldl
    (fun track control => Controller.trackAfter control track) 0

/-- How many sectors were let come since the last step, or from the beginning if there was none. -/
def sectorsSinceStep (commands : List Command) : Nat :=
  countSince Command.steps (· == .sector) commands

/-- Where commands lead the head. -/
def headOf (commands : List Command) : Head where
  track := trackOf commands
  sector := if sectorsSinceStep commands = 0 then 0 else (sectorsSinceStep commands - 1) % 32 + 1
  offset := Geometry.eightInch.offset (trackOf commands) ((sectorsSinceStep commands - 1) % 32)

variable {commands : List Command} {command : Command}

/-- One more control byte steps from the track that was reached. -/
theorem trackOf_function (commands : List Command) (byte : UInt8) :
    trackOf (commands ++ [.function byte]) =
      Controller.trackAfter (.ofByte byte) (trackOf commands) := by
  unfold trackOf
  rw [List.filterMap_append, List.foldl_append]
  rfl

/-- A command that does not step leaves the track. -/
theorem trackOf_still (hstill : command.steps = false) :
    trackOf (commands ++ [command]) = trackOf commands := by
  cases command with
  | function byte => rw [trackOf_function, Controller.trackAfter_of_still hstill]
  | _ =>
    unfold trackOf
    rw [List.filterMap_append]
    exact congrArg _ (List.append_nil _)

/-- A step leads to the start of a track. -/
theorem headOf_step {byte : UInt8} (hsteps : (Command.function byte).steps = true) :
    headOf (commands ++ [.function byte]) =
      .atTrack (Controller.trackAfter (.ofByte byte) (trackOf commands)) := by
  unfold headOf
  rw [trackOf_function, sectorsSinceStep, countSince_reset hsteps, if_pos rfl, Geometry.offset_zero]
  rfl

/-- The next sector comes under the head. -/
theorem headOf_sector (commands : List Command) :
    headOf (commands ++ [.sector]) =
      ⟨trackOf commands, sectorsSinceStep commands % 32 + 1,
        Geometry.eightInch.offset (trackOf commands) (sectorsSinceStep commands % 32)⟩ := by
  have hone : sectorsSinceStep (commands ++ [.sector]) = sectorsSinceStep commands + 1 :=
    countSince_still rfl _ commands
  unfold headOf
  rw [trackOf_still rfl, hone, if_neg (Nat.succ_ne_zero _), Nat.add_sub_cancel]

/-- Other commands leave the head where it is. -/
theorem headOf_still (hstill : command.steps = false) (hsector : command ≠ .sector) :
    headOf (commands ++ [command]) = headOf commands := by
  have hsame : sectorsSinceStep (commands ++ [command]) = sectorsSinceStep commands := by
    unfold sectorsSinceStep
    rw [countSince_still hstill, if_neg (mt eq_of_beq hsector), Nat.add_zero]
  unfold headOf
  rw [trackOf_still hstill, hsame]

/-- The register shows a sector of the track behind two bits that are always set. -/
theorem Position.encode_eq {s : Nat} (hs : s < 32) :
    encode (UInt8.ofNat s) true = (0xC0 : UInt8) ||| (UInt8.ofNat s <<< 1) := by
  have hall : ∀ k : Fin 32, encode (UInt8.ofNat k) true =
      (0xC0 : UInt8) ||| (UInt8.ofNat k <<< 1) := by
    decide
  exact hall ⟨s, hs⟩

/-- The sector that comes next is told by how many have come since the last step. -/
theorem Drive.coming_of_head {M : Type} {drive : Drive M} (hhead : drive.head = headOf commands) :
    drive.coming = sectorsSinceStep commands % 32 := by
  have hsector : drive.sector =
      if sectorsSinceStep commands = 0 then 0 else (sectorsSinceStep commands - 1) % 32 + 1 :=
    congrArg Head.sector hhead
  unfold coming
  rw [hsector, Geometry.eightInch_sectors]
  split
  · split
    · omega
    · omega
  · split
    · omega
    · omega

/-- A head that stays where commands have led it is where they lead it with another command that
does not move it. -/
theorem Drive.head_stays {M : Type} {drive drive' : Drive M} (hsame : drive'.head = drive.head)
    (hhead : drive.head = headOf commands) (hstill : command.steps = false)
    (hsector : command ≠ .sector) : drive'.head = headOf (commands ++ [command]) := by
  rw [hsame, hhead, headOf_still hstill hsector]

variable {M R W : Type} [Medium M R W]

/-- The commands that a drive has received tell where its head is. -/
theorem tells_head :
    Tells (fun commands (drive : Drive M) => drive.head = headOf commands) R W where
  start _ _ := rfl
  flush {_ bay} hhead := bay.head_flush.trans hhead
  function {commands bay} byte hloaded hhead := by
    have htrack : bay.drive.track = trackOf commands := congrArg Head.track hhead
    have hfunction := Controller.head_function hloaded (Control.ofByte byte)
    rw [htrack] at hfunction
    split at hfunction
    · next hsteps => exact hfunction.trans (headOf_step hsteps).symm
    · next hstill =>
      exact Drive.head_stays hfunction hhead (Bool.eq_false_iff.mpr hstill) nofun
  sector {commands bay} hloaded hhead := by
    have htrack : bay.drive.track = trackOf commands := congrArg Head.track hhead
    rw [Bay.head_nextSector hloaded, Drive.coming_of_head hhead, htrack, headOf_sector]
  read {_ bay} _ hhead := Drive.head_stays bay.head_readByte hhead rfl nofun
  write {_ bay} byte _ hhead := Drive.head_stays (bay.head_writeByte byte) hhead rfl nofun
  other {_ _ command} hother hhead := by
    cases command with
    | select byte => exact Drive.head_stays rfl hhead rfl nofun
    | status => exact Drive.head_stays rfl hhead rfl nofun
    | flush => exact Drive.head_stays rfl hhead rfl nofun
    | _ => cases hother

/-! ## Runs -/

namespace Controller

/-- The head of a loaded drive follows the commands that the drive has received since its medium was
put in, whatever else happens to it and to the other drives. Its track is that of the step bits of
all control bytes. If so many sectors have come since the last step, or since the medium was put in,
the next look at the position register brings the sector of that number, round the track, and shows
it. Until the first sector has come, the offset is that of the track. -/
theorem head_follows_commands (shared : R) (base : UInt16) (host : W) (ops : List (Operation M))
    (n : Fin driveCount) :
    let h := after (fresh shared base host) ops
    let commands := (Logbook.ofRun ops).received n
    let track := trackOf commands
    let turn := sectorsSinceStep commands
    (bay h n).drive.isLoaded = true →
    (bay h n).drive.track = track ∧
      (h.device.selected = n →
        (obey h .sector).1 = .byte ((0xC0 : UInt8) ||| (UInt8.ofNat (turn % 32) <<< 1)) ∧
          (bay (obey h .sector).2 n).drive.offset = track * 4384 + turn % 32 * 137) ∧
      (turn = 0 → (bay h n).drive.offset = track * 4384) := by
  intro h commands track turn hloaded
  have hhead : (bay h n).drive.head = headOf commands :=
    told_after tells_head shared base host ops n hloaded
  have htrack : (bay h n).drive.track = track := congrArg Head.track hhead
  have hcoming : (bay h n).drive.coming = turn % 32 := Drive.coming_of_head hhead
  refine ⟨htrack, ?_, ?_⟩
  · rintro rfl
    obtain ⟨hregister, hpositioned⟩ := obey_sector hloaded
    have hcoming : h.device.selectedDrive.coming = turn % 32 := hcoming
    have htrack : h.device.selectedDrive.track = track := htrack
    constructor
    · rw [hregister, hcoming, Position.encode_eq (Nat.mod_lt _ (by decide))]
    · rw [← Geometry.eightInch_offset, ← hcoming, ← htrack]
      exact hpositioned.offset_eq
  · intro hturn
    have hoffset : (bay h n).drive.offset =
        Geometry.eightInch.offset track ((turn - 1) % 32) := congrArg Head.offset hhead
    rw [hoffset, hturn]
    exact Geometry.offset_zero _ _

/-- Drive 1 is stepped in, and once more in and out again. Then all sectors come under its head and
the first of them again, with a written byte and steps of drive 2 in between. -/
theorem head_follows_commands_beside_another_drive :
    let stepped : List (Operation CopyOnWrite) :=
      [.load 1 { image := #[1, 2, 3] }, .load 2 { image := #[] }, .command (.select 1),
        .command (.function 0x01), .command (.function 0x83)]
    let turned : List (Operation CopyOnWrite) :=
      stepped ++ List.replicate 30 (.command .sector) ++
        [.command (.write 9), .command (.select 2), .command (.function 0x01),
          .command (.select 1), .command .sector, .command .read, .command .sector,
          .command .flush, .command .sector]
    (bay (after (fresh (PatchPool.ofCapacity 1) 8 ()) stepped) 1).drive.track = 1 ∧
      (bay (after (fresh (PatchPool.ofCapacity 1) 8 ()) stepped) 1).drive.offset = 4384 ∧
      (bay (after (fresh (PatchPool.ofCapacity 1) 8 ()) turned) 1).drive.track = 1 ∧
      (obey (after (fresh (PatchPool.ofCapacity 1) 8 ()) turned) .sector).1 = .byte 0xC2 ∧
      (bay (obey (after (fresh (PatchPool.ofCapacity 1) 8 ()) turned) .sector).2 1).drive.offset =
        4384 + 137 := by
  intro stepped turned
  obtain ⟨htrack, -, hoffset⟩ :=
    head_follows_commands (PatchPool.ofCapacity 1) 8 () stepped 1 (by decide +kernel)
  obtain ⟨htrack', hnext, -⟩ :=
    head_follows_commands (PatchPool.ofCapacity 1) 8 () turned 1 (by decide +kernel)
  obtain ⟨hregister, hplace⟩ := hnext (by decide +kernel)
  have hway : trackOf ((Logbook.ofRun turned).received 1) = 1 := by decide +kernel
  have hturn : sectorsSinceStep ((Logbook.ofRun turned).received 1) = 33 := by decide +kernel
  rw [hway] at htrack'
  rw [hway, hturn] at hplace
  rw [hturn] at hregister
  refine ⟨htrack.trans ?_, (hoffset ?_).trans ?_, htrack', hregister, hplace⟩
  · decide +kernel
  · decide +kernel
  · decide +kernel

end Controller

end HardSector
