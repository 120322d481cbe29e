import HardSector.Proofs.Controller.Received
import HardSector.Proofs.Drive.Writing

/-!
# What the write line tells

A control byte that enables writing opens a transfer of one sector. The write line of a loaded
drive is asserted as long as that transfer has bytes to come, and it is the commands that the
drive has received that tell this: bytes that were written while no transfer was open do not
shorten the next one.
-/

namespace HardSector

/-! ## The transfer that commands leave open -/

/-- Whether a command enables writing. -/
def Command.enables : Command → Bool
  | .function byte => (Control.ofByte byte).writeEnable
  | _ => false

/-- Whether a command writes a byte. -/
def Command.writes : Command → Bool
  | .write _ => true
  | _ => false

/-- How many bytes were written since writing was last enabled. -/
def writesSinceEnable (commands : List Command) : Nat :=
  countSince Command.enables Command.writes commands

/-- How many bytes of the open transfer were written, if one is open. -/
def transferOf (commands : List Command) : Option Nat :=
  if commands.any Command.enables = true ∧ writesSinceEnable commands < sectorSize then
    some (writesSinceEnable commands)
  else none

variable {commands : List Command} {command : Command}

/-- A control byte that enables writing opens a transfer. -/
theorem transferOf_enable (henables : command.enables = true) :
    transferOf (commands ++ [command]) = some 0 := by
  have hnone : writesSinceEnable (commands ++ [command]) = 0 := countSince_reset henables _ _
  have hsome : (commands ++ [command]).any Command.enables = true :=
    List.any_eq_true.mpr ⟨command, List.mem_append_right _ List.mem_cons_self, henables⟩
  unfold transferOf
  rw [hnone, if_pos ⟨hsome, by decide⟩]

/-- A command that does not enable writing has no part in whether writing was enabled. -/
theorem any_enables_still (hstill : command.enables = false) :
    (commands ++ [command]).any Command.enables = commands.any Command.enables := by
  rw [List.any_append, List.any_cons, hstill, List.any_nil, Bool.or_false, Bool.or_false]

/-- One more byte is written to the transfer that is open, and the last byte of a sector ends it. -/
theorem transferOf_write (commands : List Command) (byte : UInt8) :
    transferOf (commands ++ [.write byte]) =
      ((transferOf commands).map (· + 1)).filter fun count => count ≠ sectorSize := by
  have hone : writesSinceEnable (commands ++ [.write byte]) = writesSinceEnable commands + 1 :=
    countSince_still rfl _ commands
  unfold transferOf
  rw [any_enables_still rfl, hone]
  by_cases hopen : commands.any Command.enables = true ∧ writesSinceEnable commands < sectorSize
  · rw [if_pos hopen, Option.map_some]
    by_cases hfull : writesSinceEnable commands + 1 = sectorSize
    · have hended : ¬(commands.any Command.enables = true ∧
          writesSinceEnable commands + 1 < sectorSize) := by
        omega
      rw [if_neg hended, hfull]
      rfl
    · have hmore : commands.any Command.enables = true ∧
          writesSinceEnable commands + 1 < sectorSize :=
        ⟨hopen.1, by omega⟩
      rw [if_pos hmore, Option.filter_some, if_pos (decide_eq_true hfull)]
  · have hclosed : ¬(commands.any Command.enables = true ∧
        writesSinceEnable commands + 1 < sectorSize) :=
      fun hmore => hopen ⟨hmore.1, Nat.lt_of_succ_lt hmore.2⟩
    rw [if_neg hopen, if_neg hclosed]
    rfl

/-- Other commands leave the transfer alone. -/
theorem transferOf_still (hstill : command.enables = false) (hwrites : command.writes = false) :
    transferOf (commands ++ [command]) = transferOf commands := by
  have hsame : writesSinceEnable (commands ++ [command]) = writesSinceEnable commands := by
    unfold writesSinceEnable
    rw [countSince_still hstill, hwrites]
    rfl
  unfold transferOf
  rw [hsame, any_enables_still hstill]

variable {M R W : Type} [Medium M R W]

/-- The commands that a drive has received tell which transfer is open. -/
theorem tells_transfer :
    Tells (fun commands (drive : Drive M) => drive.transfer = transferOf commands) R W where
  start medium drive := by
    have hnegated : Status.isAsserted .loaded .writeEnable = false := by decide
    unfold Drive.transfer Drive.holding
    rw [hnegated]
    rfl
  flush {_ bay} htransfer := bay.transfer_flush.trans htransfer
  function {commands bay} byte hloaded htransfer := by
    have hfunction := Bay.transfer_function hloaded (Control.ofByte byte)
    split at hfunction
    · next henables =>
      have hopens : transferOf (commands ++ [.function byte]) = some 0 :=
        transferOf_enable henables
      exact hfunction.trans hopens.symm
    · next hstill =>
      have hstill : (Command.function byte).enables = false := Bool.eq_false_iff.mpr hstill
      exact (hfunction.trans htransfer).trans (transferOf_still hstill rfl).symm
  sector {_ bay} _ htransfer :=
    (bay.transfer_nextSector.trans htransfer).trans (transferOf_still rfl rfl).symm
  read {_ bay} _ htransfer :=
    (bay.transfer_readByte.trans htransfer).trans (transferOf_still rfl rfl).symm
  write byte hloaded htransfer := by
    rw [Bay.transfer_writeByte hloaded, htransfer, transferOf_write]
  other {_ _ command} hother htransfer := by
    cases command with
    | select byte => exact htransfer.trans (transferOf_still rfl rfl).symm
    | status => exact htransfer.trans (transferOf_still rfl rfl).symm
    | flush => exact htransfer.trans (transferOf_still rfl rfl).symm
    | _ => cases hother

/-! ## Runs -/

namespace Controller

/-- The write line of a loaded drive is asserted exactly if the drive has received a control byte
that enables writing since its medium was put in, and after the last such byte fewer bytes were
written to it than a sector has. -/
theorem write_line_tells_transfer (shared : R) (base : UInt16) (host : W)
    (ops : List (Operation M)) (n : Fin driveCount) :
    let h := after (fresh shared base host) ops
    let commands := (Logbook.ofRun ops).received n
    (bay h n).drive.isLoaded = true →
    ((bay h n).drive.status.isAsserted .writeEnable = true ↔
      (∃ byte, .function byte ∈ commands ∧ (Control.ofByte byte).writeEnable = true) ∧
        writesSinceEnable commands < 137) := by
  intro h commands hloaded
  have htransfer : (bay h n).drive.transfer = transferOf commands :=
    told_after tells_transfer shared base host ops n hloaded
  have henabled : commands.any Command.enables = true ↔
      ∃ byte, .function byte ∈ commands ∧ (Control.ofByte byte).writeEnable = true := by
    rw [List.any_eq_true]
    constructor
    · rintro ⟨command, hmem, henables⟩
      cases command with
      | function byte => exact ⟨byte, hmem, henables⟩
      | _ => cases henables
    · rintro ⟨byte, hmem, henables⟩
      exact ⟨.function byte, hmem, henables⟩
  rw [← henabled]
  unfold Drive.transfer transferOf at htransfer
  constructor
  · intro hline
    rw [if_pos hline] at htransfer
    refine Decidable.byContradiction fun hclosed => ?_
    rw [if_neg hclosed] at htransfer
    cases htransfer
  · intro hopen
    rw [if_pos hopen] at htransfer
    refine Decidable.byContradiction fun hline => ?_
    rw [if_neg hline] at htransfer
    cases htransfer

/-- Three bytes are written before writing is enabled. The transfer that is opened then stays open
through a step, a sector and a flush of all drives, until a whole sector has been written. -/
theorem write_line_tells_transfer_of_late_enable :
    let opened : List (Operation CopyOnWrite) :=
      [.load 2 { image := #[1, 2, 3] }, .command (.select 2)] ++
        List.replicate 3 (.command (.write 7)) ++
        [.command (.function 0x81), .command .sector, .command .flush]
    let almost := opened ++ List.replicate 136 (.command (.write 9))
    let whole := almost ++ [.command (.select 1), .command (.write 9), .command (.select 2),
      .command (.write 9)]
    (bay (after (fresh (PatchPool.ofCapacity 2) 8 ()) almost) 2).drive.status.isAsserted
        .writeEnable = true ∧
      (bay (after (fresh (PatchPool.ofCapacity 2) 8 ()) whole) 2).drive.status.isAsserted
        .writeEnable ≠ true := by
  intro opened almost whole
  have hloaded : (bay (after (fresh (PatchPool.ofCapacity 2) 8 ()) almost) 2).drive.isLoaded =
      true := by
    decide +kernel
  have hloaded' : (bay (after (fresh (PatchPool.ofCapacity 2) 8 ()) whole) 2).drive.isLoaded =
      true := by
    decide +kernel
  have henabled : Command.function 0x81 ∈ (Logbook.ofRun almost).received 2 := by decide +kernel
  have halmost : writesSinceEnable ((Logbook.ofRun almost).received 2) = 136 := by decide +kernel
  have hwhole : writesSinceEnable ((Logbook.ofRun whole).received 2) = 137 := by decide +kernel
  constructor
  · refine (write_line_tells_transfer (PatchPool.ofCapacity 2) 8 () almost 2 hloaded).mpr ?_
    refine ⟨⟨0x81, henabled, by decide⟩, ?_⟩
    rw [halmost]
    decide
  · rw [Ne, write_line_tells_transfer (PatchPool.ofCapacity 2) 8 () whole 2 hloaded', hwhole]
    exact fun hopen => Nat.lt_irrefl 137 hopen.2

end Controller

end HardSector
