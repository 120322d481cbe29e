import HardSector.Proofs.Drive.Motion

/-!
# The state of a drive

Whatever its medium does, a drive keeps its head on the disk, the offset of its buffer at
the start of a sector of its track, and its pointer within one place of the buffer. Bytes
are pending only in a buffer that stands for its sector.
-/

namespace HardSector

/-- The state that every operation leaves a drive in. -/
structure Drive.Sound {M : Type} (drive : Drive M) : Prop where
  track_le : drive.track ≤ 76
  sector_le : drive.sector ≤ 32
  pointer_le : drive.pointer ≤ bufferSize
  offset : ∃ j < 32, drive.offset = Geometry.eightInch.offset drive.track j
  loaded_of_dirty : drive.dirty = true → drive.isLoaded = true
  fetched_of_dirty : drive.dirty = true → drive.fetched = true
  /-- A fetch that failed is tried again, with the pointer back at the first byte. -/
  pointer_of_unfetched : drive.fetched = false → drive.pointer ≤ 1
  blank_of_unloaded : drive.isLoaded = false → drive.shell = { number := drive.number }

namespace Drive

variable {M : Type} {drive : Drive M}

/-- An empty drive is sound. -/
theorem sound_empty (number : Nat) : ({ number := number } : Drive M).Sound := by
  refine ⟨Nat.zero_le _, Nat.zero_le _, Nat.zero_le _, ⟨0, by decide, ?_⟩, ?_, ?_,
    fun _ => Nat.zero_le _, ?_⟩
  · simp [Geometry.trackOffset]
  · intro hdirty
    cases hdirty
  · intro hdirty
    cases hdirty
  · intro _
    simp [shell, isLoaded]

/-- A freshly loaded drive is sound. -/
theorem sound_holding (medium : M) (drive : Drive M) : (drive.holding medium).Sound := by
  refine ⟨Nat.zero_le _, Nat.zero_le _, Nat.zero_le _, ⟨0, by decide, ?_⟩, fun _ => rfl, ?_,
    fun _ => Nat.zero_le _, ?_⟩
  · simp [holding, Geometry.trackOffset]
  · intro hdirty
    cases hdirty
  · intro hunloaded
    cases hunloaded

/-- A loaded drive that has nothing to store is sound with its head at any track of the disk. -/
theorem sound_seekTo (hloaded : drive.isLoaded = true) (hclean : drive.dirty = false)
    {track : Nat} (htrack : track ≤ 76) : (drive.seekTo track).Sound := by
  refine ⟨htrack, Nat.zero_le _, Nat.zero_le _, ⟨0, by decide, ?_⟩, fun _ => hloaded, ?_,
    fun _ => Nat.zero_le _, fun hunloaded => ?_⟩
  · exact (Geometry.offset_zero _ _).symm
  · intro hdirty
    exact absurd (hclean.symm.trans hdirty) (by decide)
  · exact absurd (hloaded.symm.trans hunloaded) (by decide)

namespace Sound

/-- A drive is sound or not whatever its medium is. -/
theorem congr {N : Type} {other : Drive N} (h : drive.Sound) (hshell : other.shell = drive.shell) :
    other.Sound := by
  have htrack : other.track = drive.track := congrArg Drive.track hshell
  have hsector : other.sector = drive.sector := congrArg Drive.sector hshell
  have hpointer : other.pointer = drive.pointer := congrArg Drive.pointer hshell
  have hoffset : other.offset = drive.offset := congrArg Drive.offset hshell
  have hdirty : other.dirty = drive.dirty := congrArg Drive.dirty hshell
  have hfetched : other.fetched = drive.fetched := congrArg Drive.fetched hshell
  have hnumber : other.number = drive.number := congrArg Drive.number hshell
  have hloaded : other.isLoaded = drive.isLoaded := by
    rw [← isLoaded_shell, hshell, isLoaded_shell]
  refine ⟨htrack ▸ h.track_le, hsector ▸ h.sector_le, hpointer ▸ h.pointer_le, ?_, ?_, ?_, ?_, ?_⟩
  · rw [hoffset, htrack]
    exact h.offset
  · rw [hdirty, hloaded]
    exact h.loaded_of_dirty
  · rw [hdirty, hfetched]
    exact h.fetched_of_dirty
  · rw [hfetched, hpointer]
    exact h.pointer_of_unfetched
  · rw [hloaded, hshell, hnumber]
    exact h.blank_of_unloaded

/-! ## Moves -/

/-- Nothing is pending in an empty drive. -/
theorem flushed (h : drive.Sound) : drive.flushed.Sound := by
  unfold Drive.flushed
  cases hdirty : drive.dirty with
  | false => exact h
  | true =>
    refine ⟨h.track_le, h.sector_le, Nat.zero_le _, h.offset, ?_, ?_, fun _ => Nat.zero_le _, ?_⟩
    · intro hsettled
      cases hsettled
    · intro hsettled
      cases hsettled
    · intro hloaded
      exact absurd ((h.loaded_of_dirty hdirty).symm.trans hloaded) (by decide)

/-- The status register and the count of written bytes do not matter. -/
theorem withRegisters (h : drive.Sound) (hloaded : drive.isLoaded = true) (status : Status)
    (count : Nat) : { drive with status := status, writeCount := count }.Sound := by
  refine ⟨h.track_le, h.sector_le, h.pointer_le, h.offset, h.loaded_of_dirty, h.fetched_of_dirty,
    h.pointer_of_unfetched, fun hunloaded => ?_⟩
  exact absurd (hloaded.symm.trans hunloaded) (by decide)

/-- A step in keeps the head on the disk. -/
theorem steppedIn (hloaded : drive.isLoaded = true) (hclean : drive.dirty = false) :
    drive.steppedIn.Sound := by
  have hlast : min (drive.track + 1) Geometry.eightInch.lastTrack ≤ 76 := Nat.min_le_right _ _
  have hloaded : (drive.negate .trackZero).isLoaded = true := hloaded
  exact sound_seekTo hloaded hclean hlast

/-- A step out keeps the head on the disk. -/
theorem steppedOut (h : drive.Sound) (hloaded : drive.isLoaded = true)
    (hclean : drive.dirty = false) : drive.steppedOut.Sound := by
  have htrack : drive.track - 1 ≤ 76 := Nat.le_trans (Nat.sub_le _ _) h.track_le
  have hloaded : { drive with
      status := if drive.track - 1 = 0 then drive.status.assert .trackZero
        else drive.status }.isLoaded = true := hloaded
  exact sound_seekTo hloaded hclean htrack

/-- The other commands do not touch the head or the buffer. -/
theorem commanded (h : drive.Sound) (hloaded : drive.isLoaded = true) (control : Control) :
    (drive.commanded control).Sound :=
  h.withRegisters hloaded _ _

/-- The next sector is one of the track. -/
theorem advanced (h : drive.Sound) (hloaded : drive.isLoaded = true)
    (hclean : drive.dirty = false) : drive.advanced.Sound := by
  have hcoming : drive.coming < 32 := by
    unfold Drive.coming
    rw [Geometry.eightInch_sectors]
    split <;> omega
  refine ⟨h.track_le, hcoming, Nat.zero_le _, ⟨_, hcoming, rfl⟩, fun _ => hloaded, ?_,
    fun _ => Nat.zero_le _, fun hunloaded => ?_⟩
  · intro hdirty
    exact absurd (hclean.symm.trans hdirty) (by decide)
  · exact absurd (hloaded.symm.trans hunloaded) (by decide)

/-- A written byte stays within the buffer. -/
theorem written (h : drive.Sound) (hloaded : drive.isLoaded = true) (byte : UInt8) :
    (drive.written byte).Sound := by
  refine ⟨h.track_le, h.sector_le, ?_, h.offset, fun _ => hloaded, fun _ => rfl, ?_,
    fun hunloaded => ?_⟩
  · exact Nat.add_le_of_le_sub (by decide) (Nat.min_le_right _ _)
  · intro hfetched
    cases hfetched
  · exact absurd (hloaded.symm.trans hunloaded) (by decide)

/-- The end of a transfer touches neither the head nor the buffer. -/
theorem completed (h : drive.Sound) (hloaded : drive.isLoaded = true) : drive.completed.Sound :=
  h.withRegisters hloaded _ _

/-- A buffer in which nothing is pending may receive a sector. -/
theorem received (h : drive.Sound) (hloaded : drive.isLoaded = true)
    (hfetched : drive.fetched = false) (buffer : Buffer) (complete : Bool) :
    (drive.received buffer complete).Sound := by
  have hstill : (drive.received buffer complete).isLoaded = true := hloaded
  refine ⟨h.track_le, h.sector_le, Nat.zero_le _, h.offset, fun _ => hstill, ?_,
    fun _ => Nat.zero_le _, fun hunloaded => ?_⟩
  · intro hdirty
    exact absurd ((h.fetched_of_dirty hdirty).symm.trans hfetched) (by decide)
  · exact absurd (hstill.symm.trans hunloaded) (by decide)

/-- A read stops at the last byte of the buffer. -/
theorem passed (h : drive.Sound) (hloaded : drive.isLoaded = true)
    (hpointer : drive.fetched = false → drive.pointer = 0) : drive.passed.Sound := by
  refine ⟨h.track_le, h.sector_le, ?_, h.offset, fun _ => hloaded, h.fetched_of_dirty, ?_,
    fun hunloaded => ?_⟩
  · exact Nat.le_trans (Nat.min_le_right _ _) (by decide)
  · intro hfetched
    have hzero := hpointer hfetched
    rw [Drive.passed, hzero]
    exact Nat.min_le_left _ _
  · exact absurd (hloaded.symm.trans hunloaded) (by decide)

/-- A pointer past the buffer stands in a loaded drive whose buffer was fetched. -/
theorem loaded_of_pointer (h : drive.Sound) (hpointer : drive.pointer = bufferSize) :
    drive.isLoaded = true ∧ drive.fetched = true := by
  constructor
  · cases hloaded : drive.isLoaded with
    | true => rfl
    | false =>
      have hzero : drive.pointer = 0 := congrArg Drive.pointer (h.blank_of_unloaded hloaded)
      rw [hpointer] at hzero
      cases hzero
  · cases hfetched : drive.fetched with
    | true => rfl
    | false =>
      have hsmall := h.pointer_of_unfetched hfetched
      rw [hpointer] at hsmall
      exact absurd hsmall (by decide)

end Sound

end Drive

namespace Bay

variable {M R W : Type} [Medium M R W] {bay : Bay M R W}

/-! ## Operations -/

/-- A flush keeps the drive sound. -/
theorem sound_flush (h : bay.drive.Sound) : bay.flush.drive.Sound := by
  refine h.flushed.congr ?_
  rw [shell_flush, Drive.shell_flushed]

/-- Making the buffer ready keeps the drive sound; a pointer past the start stands in a fetched
buffer then. -/
theorem sound_ready (h : bay.drive.Sound) (hloaded : bay.drive.isLoaded = true) :
    bay.ready.drive.Sound ∧ bay.ready.drive.isLoaded = true ∧
      (bay.ready.drive.fetched = false → bay.ready.drive.pointer = 0) := by
  cases hfetched : bay.drive.fetched with
  | true =>
    rw [ready_of_fetched hfetched]
    exact ⟨h, hloaded, fun hnot => absurd (hfetched.symm.trans hnot) (by decide)⟩
  | false =>
    obtain ⟨buffer, complete, medium, hdrive⟩ := ready_drive hloaded hfetched
    have hreceived := h.received hloaded hfetched buffer complete
    rw [hdrive]
    exact ⟨hreceived.congr (Drive.shell_withMedium _ hloaded.symm), rfl, fun _ => rfl⟩

/-- Every motion of a list leaves the drive sound. -/
def SoundAlong : List Motion → Bay M R W → Prop
  | [], _ => True
  | motion :: motions, bay =>
    (bay.make motion).drive.Sound ∧ SoundAlong motions (bay.make motion)

/-- Motions one after another. -/
theorem soundAlong_append {motions motions' : List Motion} :
    bay.SoundAlong (motions ++ motions') ↔
      bay.SoundAlong motions ∧ (bay.follow motions).SoundAlong motions' := by
  induction motions generalizing bay with
  | nil => simp [SoundAlong]
  | cons motion motions ih => simp [SoundAlong, ih, and_assoc]

/-- A drive that stays sound is sound in the end. -/
theorem sound_follow {motions : List Motion} (h : bay.drive.Sound)
    (halong : bay.SoundAlong motions) : (bay.follow motions).drive.Sound := by
  induction motions generalizing bay with
  | nil => exact h
  | cons motion motions ih => exact ih halong.1 halong.2

/-- A step leaves the drive sound. -/
theorem soundAlong_step (h : bay.drive.Sound) (hloaded : bay.drive.isLoaded = true) :
    bay.SoundAlong [.flush, .move .stepIn] ∧ bay.SoundAlong [.flush, .move .stepOut] := by
  have hflush := sound_flush h
  have hstill : bay.flush.drive.isLoaded = true := bay.isLoaded_flush.trans hloaded
  exact ⟨⟨hflush, .steppedIn hstill bay.dirty_flush, trivial⟩,
    ⟨hflush, hflush.steppedOut hstill bay.dirty_flush, trivial⟩⟩

/-- A control byte leaves the drive sound. -/
theorem soundAlong_function (h : bay.drive.Sound) (control : Control) :
    bay.SoundAlong (bay.drive.functionMotions control) := by
  unfold Drive.functionMotions
  cases hloaded : bay.drive.isLoaded with
  | false => trivial
  | true =>
    rw [if_pos rfl, soundAlong_append, soundAlong_append]
    have hin : bay.SoundAlong (if control.stepIn then [.flush, .move .stepIn] else []) := by
      split
      · exact (soundAlong_step h hloaded).1
      · trivial
    have hsound := sound_follow h hin
    refine ⟨⟨hin, ?_⟩, Drive.Sound.commanded (sound_follow h ?_) ?_ control, trivial⟩
    · split
      · exact (soundAlong_step hsound ((isLoaded_follow _ _).trans hloaded)).2
      · trivial
    · rw [soundAlong_append]
      refine ⟨hin, ?_⟩
      split
      · exact (soundAlong_step hsound ((isLoaded_follow _ _).trans hloaded)).2
      · trivial
    · exact (isLoaded_follow _ _).trans hloaded

/-- Letting the next sector come leaves the drive sound. -/
theorem soundAlong_sector (h : bay.drive.Sound) : bay.SoundAlong bay.drive.sectorMotions := by
  unfold Drive.sectorMotions
  cases hloaded : bay.drive.isLoaded with
  | false => trivial
  | true =>
    have hflush := sound_flush h
    exact ⟨hflush, hflush.advanced (bay.isLoaded_flush.trans hloaded) bay.dirty_flush, trivial⟩

/-- Writing a byte leaves the drive sound. -/
theorem soundAlong_write (h : bay.drive.Sound) (byte : UInt8) :
    bay.SoundAlong (bay.drive.writeMotions byte) := by
  unfold Drive.writeMotions
  cases hloaded : bay.drive.isLoaded with
  | false => trivial
  | true =>
    have hwritten : (bay.update (Drive.written byte)).drive.Sound := h.written hloaded byte
    refine ⟨hwritten, ?_⟩
    split
    · have hflush := sound_flush hwritten
      exact ⟨hflush, hflush.completed ((isLoaded_flush _).trans hloaded), trivial⟩
    · trivial

/-- Reading a byte leaves the drive sound, whether there is one or not. -/
theorem soundAlong_read (h : bay.drive.Sound) : bay.SoundAlong bay.drive.readMotions := by
  unfold Drive.readMotions
  cases hloaded : bay.drive.isLoaded with
  | false => trivial
  | true =>
    obtain ⟨hready, hstill, hpointer⟩ := sound_ready h hloaded
    refine ⟨hready, ?_⟩
    split
    · trivial
    · exact ⟨hready.passed hstill hpointer, trivial⟩

/-! ## Reading past the buffer -/

/-- A pointer within the buffer is within it once the buffer is ready. -/
theorem pointer_ready (hinside : bay.drive.pointer < bufferSize) :
    bay.ready.drive.pointer < bufferSize := by
  cases hloaded : bay.drive.isLoaded with
  | false =>
    rw [ready_of_unloaded hloaded]
    exact hinside
  | true =>
    cases hfetched : bay.drive.fetched with
    | true =>
      rw [ready_of_fetched hfetched]
      exact hinside
    | false =>
      obtain ⟨buffer, complete, medium, hdrive⟩ := ready_drive hloaded hfetched
      rw [hdrive]
      exact Nat.zero_lt_succ _

/-- A read whose pointer is within the buffer brings a byte and leaves the pointer there. -/
theorem readByte_of_inside (hinside : bay.drive.pointer < bufferSize) :
    ∃ byte, bay.readByte.1 = .ok byte ∧ bay.readByte.2.drive.pointer < bufferSize := by
  cases hloaded : bay.drive.isLoaded with
  | false =>
    rw [(unloaded hloaded).2.2.2]
    exact ⟨noDiskByte, rfl, hinside⟩
  | true =>
    rw [readByte_eq hloaded, Vector.getElem?_eq_getElem (pointer_ready hinside)]
    exact ⟨_, rfl, Nat.lt_succ_of_le (Nat.min_le_right _ _)⟩

/-- A read finds no byte, and leaves all as it was, if the pointer has left the buffer; else there
is a byte. -/
theorem readByte_cases (h : bay.drive.Sound) :
    (bay.drive.pointer = bufferSize ∧ bay.readByte = (.error .bufferOverrun, bay)) ∨
      (bay.drive.pointer ≠ bufferSize ∧ ∃ byte, bay.readByte.1 = .ok byte) := by
  by_cases hpointer : bay.drive.pointer = bufferSize
  · left
    obtain ⟨hloaded, hfetched⟩ := h.loaded_of_pointer hpointer
    rw [readByte_eq hloaded, ready_of_fetched hfetched, hpointer]
    refine ⟨rfl, ?_⟩
    rw [Vector.getElem?_eq_none (Nat.le_refl bufferSize)]
  · right
    obtain ⟨byte, hbyte, _⟩ := readByte_of_inside (Nat.lt_of_le_of_ne h.pointer_le hpointer)
    exact ⟨hpointer, byte, hbyte⟩

end Bay

end HardSector
