import HardSector.Proofs.Drive.Moves

/-!
# Motions

A motion is a flush, a fetch where one is needed, or a move. Each operation of a drive but
the change of its medium follows a list of motions, which can be told from the drive alone
and does not depend on what the medium does.
-/

namespace HardSector

/-- What the operations of a drive are made of. -/
inductive Motion where
  | flush
  | ready
  | move (move : Drive.Move)

/-- Whether a motion takes a byte into the buffer. -/
def Motion.takes : Motion → Bool
  | .move (.take _) => true
  | _ => false

namespace Drive

variable {M : Type}

/-- The motions of a control byte. -/
def functionMotions (control : Control) (drive : Drive M) : List Motion :=
  if drive.isLoaded then
    (if control.stepIn then [.flush, .move .stepIn] else []) ++
      (if control.stepOut then [.flush, .move .stepOut] else []) ++ [.move (.obey control)]
  else []

/-- The motions that let the next sector come. -/
def sectorMotions (drive : Drive M) : List Motion :=
  if drive.isLoaded then [.flush, .move .advance] else []

/-- The motions of a written byte. -/
def writeMotions (byte : UInt8) (drive : Drive M) : List Motion :=
  if drive.isLoaded then
    .move (.take byte) ::
      if drive.writeCount + 1 = sectorSize then [.flush, .move .complete] else []
  else []

/-- The motions of a read byte. -/
def readMotions (drive : Drive M) : List Motion :=
  if drive.isLoaded then
    .ready :: if drive.fetched = true ∧ bufferSize ≤ drive.pointer then [] else [.move .pass]
  else []

/-- Only the first motion of a written byte takes a byte. -/
theorem takes_motions (drive : Drive M) (control : Control) :
    (∀ motion ∈ drive.functionMotions control, motion.takes = false) ∧
      (∀ motion ∈ drive.sectorMotions, motion.takes = false) ∧
      (∀ motion ∈ drive.readMotions, motion.takes = false) := by
  unfold functionMotions sectorMotions readMotions
  cases drive.isLoaded with
  | false => simp
  | true =>
    refine ⟨?_, by simp [Motion.takes], ?_⟩
    · cases control.stepIn <;> cases control.stepOut <;> simp [Motion.takes]
    · rw [if_pos rfl]
      split <;> simp [Motion.takes]

end Drive

namespace Bay

variable {M R W : Type} [Medium M R W]

/-- The bay after a motion. -/
def make (bay : Bay M R W) : Motion → Bay M R W
  | .flush => bay.flush
  | .ready => bay.ready
  | .move move => bay.update (Drive.move move)

/-- The bay after a list of motions. -/
def follow (bay : Bay M R W) (motions : List Motion) : Bay M R W := motions.foldl make bay

@[simp] theorem follow_nil (bay : Bay M R W) : bay.follow [] = bay := rfl

@[simp] theorem follow_cons (bay : Bay M R W) (motion : Motion) (motions : List Motion) :
    bay.follow (motion :: motions) = (bay.make motion).follow motions := rfl

/-- A motion leaves a loaded drive loaded and an empty one empty. -/
@[simp] theorem isLoaded_make (bay : Bay M R W) (motion : Motion) :
    (bay.make motion).drive.isLoaded = bay.drive.isLoaded := by
  cases motion with
  | flush => exact bay.isLoaded_flush
  | ready => exact bay.isLoaded_ready
  | move move => exact congrArg Option.isSome (bay.drive.medium_move move)

/-- Motions leave a loaded drive loaded and an empty one empty. -/
@[simp] theorem isLoaded_follow (bay : Bay M R W) (motions : List Motion) :
    (bay.follow motions).drive.isLoaded = bay.drive.isLoaded := by
  induction motions generalizing bay with
  | nil => rfl
  | cons motion motions ih => rw [follow_cons, ih, isLoaded_make]

/-- Motions that take no byte leave nothing pending where nothing was. -/
theorem clean_follow {bay : Bay M R W} {motions : List Motion}
    (htakes : ∀ motion ∈ motions, motion.takes = false) (hclean : bay.drive.dirty = false) :
    (bay.follow motions).drive.dirty = false := by
  induction motions generalizing bay with
  | nil => exact hclean
  | cons motion motions ih =>
    refine ih (fun m hm => htakes m (List.mem_cons_of_mem _ hm)) ?_
    have htake := htakes motion List.mem_cons_self
    cases motion with
    | flush => exact bay.dirty_flush
    | ready => exact bay.pending_ready.1.trans hclean
    | move move =>
      cases move with
      | take byte => cases htake
      | _ => exact hclean

/-! ## Operations -/

/-- A control byte follows its motions. -/
theorem function_follow (bay : Bay M R W) (control : Control) :
    bay.function control = bay.follow (bay.drive.functionMotions control) := by
  unfold Drive.functionMotions
  cases hloaded : bay.drive.isLoaded with
  | false => exact (unloaded hloaded).1 control
  | true =>
    rw [function_eq control hloaded, if_pos rfl]
    cases control.stepIn <;> cases control.stepOut <;>
      simp only [if_true, Bool.false_eq_true, if_false, stepIn_eq, stepOut_eq, id_eq] <;> rfl

/-- Letting the next sector come follows its motions. -/
theorem nextSector_follow (bay : Bay M R W) :
    bay.nextSector.2 = bay.follow bay.drive.sectorMotions := by
  unfold Drive.sectorMotions
  cases hloaded : bay.drive.isLoaded with
  | false => rw [(unloaded hloaded).2.1]; rfl
  | true => rw [nextSector_eq hloaded]; rfl

/-- Writing a byte follows its motions. -/
theorem writeByte_follow (bay : Bay M R W) (byte : UInt8) :
    bay.writeByte byte = bay.follow (bay.drive.writeMotions byte) := by
  unfold Drive.writeMotions
  cases hloaded : bay.drive.isLoaded with
  | false => exact (unloaded hloaded).2.2.1 byte
  | true =>
    rw [writeByte_eq byte hloaded]
    by_cases hfull : bay.drive.writeCount + 1 = sectorSize
    · rw [if_pos hfull, if_pos hfull]
      rfl
    · rw [if_neg hfull, if_neg hfull]
      rfl

/-- Reading a byte follows its motions. -/
theorem readByte_follow (bay : Bay M R W) :
    bay.readByte.2 = bay.follow bay.drive.readMotions := by
  unfold Drive.readMotions
  cases hloaded : bay.drive.isLoaded with
  | false => rw [(unloaded hloaded).2.2.2]; rfl
  | true =>
    rw [readByte_eq hloaded]
    by_cases hout : bay.drive.fetched = true ∧ bufferSize ≤ bay.drive.pointer
    · rw [if_pos rfl, if_pos hout, ready_of_fetched hout.1, Vector.getElem?_eq_none hout.2]
      exact (ready_of_fetched hout.1).symm
    · have hinside : bay.ready.drive.pointer < bufferSize := by
        cases hfetched : bay.drive.fetched with
        | true =>
          rw [ready_of_fetched hfetched]
          exact Nat.lt_of_not_le fun hle => hout ⟨hfetched, hle⟩
        | false =>
          obtain ⟨buffer, complete, medium, hdrive⟩ := ready_drive hloaded hfetched
          rw [hdrive]
          exact Nat.zero_lt_succ _
      rw [if_pos rfl, if_neg hout, Vector.getElem?_eq_getElem hinside]
      rfl

end Bay

end HardSector
