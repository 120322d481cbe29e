import HardSector.Drive

/-!
# Drive operations as flushes, fetches and moves

Whatever is done to a drive is made of four things: the buffered sector is flushed, the
sector under the head is fetched, the medium is changed, or the drive moves: its own
fields change and nothing else. A move says the same of every kind of medium, so what a
drive does can be followed on its shell, in which only the presence of a medium is left.
-/

namespace HardSector

namespace Drive

variable {M : Type}

/-! ## Moves -/

/-- A drive of which only the presence of a medium is known. -/
def shell (drive : Drive M) : Drive Unit :=
  { drive with medium := if drive.isLoaded then some () else none }

/-- The drive after a flush, but for its medium. -/
def flushed (drive : Drive M) : Drive M := if drive.dirty then drive.settled else drive

/-- The drive with its head at the start of a track. -/
def seekTo (drive : Drive M) (track : Nat) : Drive M :=
  { drive with
    track := track
    offset := Geometry.eightInch.trackOffset track
    sector := 0
    pointer := 0
    fetched := false }

/-- The drive after a step in. -/
def steppedIn (drive : Drive M) : Drive M :=
  (drive.negate .trackZero).seekTo (min (drive.track + 1) Geometry.eightInch.lastTrack)

/-- The drive after a step out. -/
def steppedOut (drive : Drive M) : Drive M :=
  { drive with
    status := if drive.track - 1 = 0 then drive.status.assert .trackZero else drive.status }.seekTo
      (drive.track - 1)

/-- The drive after the commands of a control byte that do not move the head. -/
def commanded (control : Control) (drive : Drive M) : Drive M :=
  { drive with
    status :=
      if control.writeEnable then (Bay.headCommands drive.status control).assert .writeEnable
      else Bay.headCommands drive.status control
    writeCount := if control.writeEnable then 0 else drive.writeCount }

/-- Commands to the head change only the lines of the head and of the data. -/
theorem isAsserted_headCommands {line : StatusLine} (hhead : .headStatus ≠ line)
    (hdata : .readDataAvailable ≠ line) (status : Status) (control : Control) :
    (Bay.headCommands status control).isAsserted line = status.isAsserted line := by
  unfold Bay.headCommands
  cases control.headLoad <;> cases control.headUnload <;>
    simp [Status.isAsserted_assert_of_ne, Status.isAsserted_negate_of_ne, hhead, hdata]

/-- The sector that comes under the head next. -/
def coming (drive : Drive M) : Nat :=
  if Geometry.eightInch.sectors ≤ drive.sector then 0 else drive.sector

/-- The drive with the next sector under its head. -/
def advanced (drive : Drive M) : Drive M :=
  { drive with
    sector := drive.coming + 1
    offset := Geometry.eightInch.offset drive.track drive.coming
    pointer := 0
    fetched := false }

/-- The drive with a byte taken into its buffer. -/
def written (byte : UInt8) (drive : Drive M) : Drive M :=
  { drive with
    buffer := drive.buffer.setIfInBounds (min drive.pointer (bufferSize - 1)) byte
    pointer := min drive.pointer (bufferSize - 1) + 1
    dirty := true
    fetched := true
    writeCount := drive.writeCount + 1 }

/-- The drive at the end of a transfer. -/
def completed (drive : Drive M) : Drive M :=
  { drive.negate .writeEnable with writeCount := 0 }

/-- The drive with the byte under its pointer read. -/
def passed (drive : Drive M) : Drive M :=
  { drive with pointer := min (drive.pointer + 1) (bufferSize - 1) }

/-- A change of a drive's own fields. -/
inductive Move where
  | stepIn
  | stepOut
  | obey (control : Control)
  | advance
  | take (byte : UInt8)
  | complete
  | pass

/-- The drive after a move. -/
def move : Move → Drive M → Drive M
  | .stepIn => steppedIn
  | .stepOut => steppedOut
  | .obey control => commanded control
  | .advance => advanced
  | .take byte => written byte
  | .complete => completed
  | .pass => passed

/-- The drive with a buffer fetched, or as much of it as was delivered. -/
def received (buffer : Buffer) (complete : Bool) (drive : Drive M) : Drive M :=
  { drive with buffer := buffer, pointer := 0, fetched := drive.fetched || complete }

/-- The drive with a medium just put into it. -/
def holding (medium : M) (drive : Drive M) : Drive M :=
  { number := drive.number, status := .loaded, medium := some medium }

@[simp] theorem isLoaded_shell (drive : Drive M) : drive.shell.isLoaded = drive.isLoaded := by
  unfold isLoaded shell isLoaded
  cases drive.medium <;> rfl

/-- The shell of a drive does not tell one medium from another. -/
theorem shell_withMedium (drive : Drive M) {medium : Option M}
    (hsome : medium.isSome = drive.medium.isSome) :
    { drive with medium := medium }.shell = drive.shell := by
  unfold shell isLoaded
  rw [hsome]

@[simp] theorem shell_flushed (drive : Drive M) : drive.flushed.shell = drive.shell.flushed := by
  unfold flushed
  rw [show drive.shell.dirty = drive.dirty from rfl]
  split <;> rfl

/-- A move goes on the shell as it goes on the drive. -/
theorem shell_move (move : Move) (drive : Drive M) :
    (drive.move move).shell = drive.shell.move move := by
  cases move <;> rfl

@[simp] theorem shell_received (buffer : Buffer) (complete : Bool) (drive : Drive M) :
    (drive.received buffer complete).shell = drive.shell.received buffer complete := rfl

/-- Nothing is pending after a flush. -/
@[simp] theorem dirty_flushed (drive : Drive M) : drive.flushed.dirty = false := by
  unfold flushed
  cases hdirty : drive.dirty with
  | false => exact hdirty
  | true => rfl

@[simp] theorem medium_flushed (drive : Drive M) : drive.flushed.medium = drive.medium := by
  unfold flushed
  split <;> rfl

@[simp] theorem medium_received (buffer : Buffer) (complete : Bool) (drive : Drive M) :
    (drive.received buffer complete).medium = drive.medium := rfl

/-- A move does not touch the medium. -/
@[simp] theorem medium_move (move : Move) (drive : Drive M) :
    (drive.move move).medium = drive.medium := by
  cases move <;> rfl

end Drive

namespace Bay

variable {M R W : Type}

/-- Let the drive of a bay move. -/
def update (f : Drive M → Drive M) (bay : Bay M R W) : Bay M R W := ⟨f bay.drive, bay.site⟩

@[simp] theorem drive_update (f : Drive M → Drive M) (bay : Bay M R W) :
    (bay.update f).drive = f bay.drive := rfl

@[simp] theorem site_update (f : Drive M → Drive M) (bay : Bay M R W) :
    (bay.update f).site = bay.site := rfl

variable [Medium M R W]

/-! ## Flushes -/

/-- There is nothing to store in an empty drive. -/
theorem storeSector_of_none {bay : Bay M R W} (hmedium : bay.drive.medium = none) :
    bay.storeSector = bay := by
  unfold storeSector
  simp only [hmedium]

/-- The buffered sector goes to the medium, at the offset of the drive. -/
theorem storeSector_of_some {bay : Bay M R W} {medium : M}
    (hmedium : bay.drive.medium = some medium) :
    bay.storeSector =
      match Medium.store medium bay.site bay.drive.offset bay.drive.buffer.sector with
      | ⟨.ok (), medium, site⟩ => ⟨{ bay.drive with medium := some medium }, site⟩
      | ⟨.error cause, medium, site⟩ =>
        ⟨{ bay.drive with medium := some medium },
          site.note [.writeFailed bay.drive.number bay.drive.offset cause]⟩ := by
  obtain ⟨⟨number, track, sector, status, count, buffer, pointer, offset, dirty, fetched, held⟩,
    site⟩ := bay
  obtain rfl : held = some medium := hmedium
  rfl

/-- Storing the buffered sector leaves the medium, what it shares and the host as the store does. -/
theorem storeSector_leaves {bay : Bay M R W} {medium : M}
    (hmedium : bay.drive.medium = some medium) :
    let stored := Medium.store medium bay.site bay.drive.offset bay.drive.buffer.sector
    bay.storeSector.drive.medium = some stored.medium ∧
      bay.storeSector.site.shared = stored.site.shared ∧
      bay.storeSector.site.host = stored.site.host := by
  dsimp only
  rw [storeSector_of_some hmedium]
  generalize Medium.store medium bay.site bay.drive.offset bay.drive.buffer.sector = stored
  obtain ⟨outcome, medium', site⟩ := stored
  cases outcome <;> exact ⟨rfl, rfl, rfl⟩

/-- Storing the buffered sector changes nothing of the drive but the state of its medium. -/
theorem storeSector_drive (bay : Bay M R W) :
    ∃ medium, bay.storeSector.drive = { bay.drive with medium := medium } ∧
      medium.isSome = bay.drive.medium.isSome := by
  cases hmedium : bay.drive.medium with
  | none =>
    refine ⟨none, ?_, rfl⟩
    rw [storeSector_of_none hmedium, ← hmedium]
  | some medium =>
    rw [storeSector_of_some hmedium]
    split
    · exact ⟨_, rfl, rfl⟩
    · exact ⟨_, rfl, rfl⟩

/-- A flush settles the drive if it is dirty and else does nothing. -/
theorem flush_eq (bay : Bay M R W) :
    bay.flush =
      if bay.drive.dirty then bay.storeSector.update Drive.settled else bay := rfl

/-- There is nothing to flush where nothing is pending. -/
theorem flush_of_clean {bay : Bay M R W} (hclean : bay.drive.dirty = false) : bay.flush = bay := by
  rw [flush_eq, hclean]
  rfl

/-- A flush changes nothing of the drive but its buffer's standing and the state of its medium. -/
theorem flush_drive (bay : Bay M R W) :
    ∃ medium, bay.flush.drive = { bay.drive.flushed with medium := medium } ∧
      medium.isSome = bay.drive.medium.isSome := by
  rw [flush_eq]
  unfold Drive.flushed
  cases hdirty : bay.drive.dirty with
  | false => exact ⟨bay.drive.medium, rfl, rfl⟩
  | true =>
    obtain ⟨medium, hdrive, hsome⟩ := bay.storeSector_drive
    refine ⟨medium, ?_, hsome⟩
    simp only [if_true, drive_update, hdrive]
    rfl

/-- What a flush does to the shell of a drive. -/
theorem shell_flush (bay : Bay M R W) : bay.flush.drive.shell = bay.drive.shell.flushed := by
  obtain ⟨medium, hdrive, hsome⟩ := bay.flush_drive
  have hloaded : medium.isSome = bay.drive.flushed.medium.isSome := by
    rw [hsome, Drive.medium_flushed]
  rw [hdrive, Drive.shell_withMedium _ hloaded, Drive.shell_flushed]

/-- A flush leaves a loaded drive loaded and an empty one empty. -/
@[simp] theorem isLoaded_flush (bay : Bay M R W) :
    bay.flush.drive.isLoaded = bay.drive.isLoaded := by
  obtain ⟨medium, hdrive, hsome⟩ := bay.flush_drive
  rw [hdrive]
  exact hsome

/-- Nothing is pending after a flush. -/
@[simp] theorem dirty_flush (bay : Bay M R W) : bay.flush.drive.dirty = false := by
  obtain ⟨medium, hdrive, _⟩ := bay.flush_drive
  rw [hdrive]
  exact bay.drive.dirty_flushed

/-- A flush leaves the bytes in the buffer. -/
@[simp] theorem buffer_flush (bay : Bay M R W) : bay.flush.drive.buffer = bay.drive.buffer := by
  obtain ⟨medium, hdrive, _⟩ := bay.flush_drive
  rw [hdrive]
  unfold Drive.flushed
  split <;> rfl

/-- A flush leaves the buffer where it lies. -/
@[simp] theorem offset_flush (bay : Bay M R W) : bay.flush.drive.offset = bay.drive.offset := by
  obtain ⟨medium, hdrive, _⟩ := bay.flush_drive
  rw [hdrive]
  unfold Drive.flushed
  split <;> rfl

/-- A flush does not care about the status of the drive. -/
theorem flush_withStatus (bay : Bay M R W) (status : Status) :
    (bay.update fun drive => { drive with status := status }).flush =
      bay.flush.update fun drive => { drive with status := status } := by
  rw [flush_eq, flush_eq]
  cases hdirty : bay.drive.dirty with
  | false => simp only [drive_update, hdirty, Bool.false_eq_true, if_false]
  | true =>
    simp only [drive_update, hdirty, if_true]
    cases hmedium : bay.drive.medium with
    | none => rw [storeSector_of_none hmedium, storeSector_of_none (by exact hmedium)]; rfl
    | some medium =>
      have hstatus : (bay.update fun drive => { drive with status := status }).drive.medium =
          some medium := hmedium
      rw [storeSector_of_some hmedium, storeSector_of_some hstatus]
      simp only [drive_update, site_update]
      split <;> rfl

/-! ## The operations -/

/-- A seek is a flush and a move. -/
theorem seek_eq (bay : Bay M R W) (track : Nat) :
    bay.seek track = bay.flush.update fun drive => drive.seekTo track := rfl

/-- A flush keeps the number of the drive, its track, its sector and its status. -/
theorem registers_flush (bay : Bay M R W) :
    bay.flush.drive.number = bay.drive.number ∧ bay.flush.drive.track = bay.drive.track ∧
      bay.flush.drive.sector = bay.drive.sector ∧ bay.flush.drive.status = bay.drive.status := by
  obtain ⟨medium, hdrive, _⟩ := bay.flush_drive
  rw [hdrive]
  unfold Drive.flushed
  split <;> exact ⟨rfl, rfl, rfl, rfl⟩

/-- A step in is a flush and a move. -/
theorem stepIn_eq (bay : Bay M R W) : bay.stepIn = bay.flush.update Drive.steppedIn := by
  obtain ⟨_, htrack, _, hstatus⟩ := bay.registers_flush
  have hflush := bay.flush_withStatus (bay.drive.status.negate .trackZero)
  have hseek : bay.stepIn = (bay.update fun drive =>
      { drive with status := bay.drive.status.negate .trackZero }).seek
        (min (bay.drive.track + 1) Geometry.eightInch.lastTrack) := rfl
  rw [hseek, seek_eq, hflush]
  unfold Drive.steppedIn Drive.negate
  simp only [update, htrack, hstatus]

/-- A step out is a flush and a move. -/
theorem stepOut_eq (bay : Bay M R W) : bay.stepOut = bay.flush.update Drive.steppedOut := by
  obtain ⟨_, htrack, _, hstatus⟩ := bay.registers_flush
  have hflush := bay.flush_withStatus
    (if bay.drive.track - 1 = 0 then bay.drive.status.assert .trackZero else bay.drive.status)
  have hseek : bay.stepOut = (bay.update fun drive =>
      { drive with
        status := if bay.drive.track - 1 = 0 then bay.drive.status.assert .trackZero
          else bay.drive.status }).seek (bay.drive.track - 1) := by
    unfold stepOut
    by_cases hzero : bay.drive.track - 1 = 0
    · simp only [hzero, if_true]
      rfl
    · simp only [hzero, if_false]
      rfl
  rw [hseek, seek_eq, hflush]
  unfold Drive.steppedOut
  simp only [update, htrack, hstatus]

/-- A control byte steps the head in, steps it out, and then moves the drive. -/
theorem function_eq {bay : Bay M R W} (control : Control) (hloaded : bay.drive.isLoaded = true) :
    bay.function control =
      ((if control.stepOut then stepOut else id)
        ((if control.stepIn then stepIn else id) bay)).update (Drive.commanded control) := by
  unfold function
  rw [if_pos hloaded]
  unfold Drive.commanded
  cases control.stepIn <;> cases control.stepOut <;> cases control.writeEnable <;> rfl

/-- Letting the next sector come is a flush and a move. -/
theorem nextSector_eq {bay : Bay M R W} (hloaded : bay.drive.isLoaded = true) :
    bay.nextSector =
      (Position.encode (UInt8.ofNat bay.drive.coming) true, bay.flush.update Drive.advanced) := by
  obtain ⟨_, _, hsector, _⟩ := bay.registers_flush
  have hcoming : bay.flush.drive.coming = bay.drive.coming := by
    unfold Drive.coming
    rw [hsector]
  unfold nextSector
  rw [if_pos hloaded, ← hcoming]
  rfl

/-- Writing a byte is a move, with a flush and another move after it when it ends a transfer. -/
theorem writeByte_eq {bay : Bay M R W} (byte : UInt8) (hloaded : bay.drive.isLoaded = true) :
    bay.writeByte byte =
      if bay.drive.writeCount + 1 = sectorSize then
        (bay.update (Drive.written byte)).flush.update Drive.completed
      else bay.update (Drive.written byte) := by
  unfold writeByte
  rw [if_pos hloaded]
  rfl

/-- The bay once its buffer has been made to stand for the sector, if that can be done. -/
def ready (bay : Bay M R W) : Bay M R W :=
  match bay.drive.medium with
  | none => bay
  | some medium => if bay.drive.fetched then bay else bay.fetchSector medium

/-- Reading a byte makes the buffer ready and is then a move, if there is a byte. -/
theorem readByte_eq {bay : Bay M R W} (hloaded : bay.drive.isLoaded = true) :
    bay.readByte =
      match bay.ready.drive.buffer[bay.ready.drive.pointer]? with
      | none => (.error .bufferOverrun, bay.ready)
      | some byte => (.ok byte, bay.ready.update Drive.passed) := by
  obtain ⟨medium, hmedium⟩ := Option.isSome_iff_exists.mp hloaded
  unfold readByte ready
  simp only [hmedium]
  rfl

/-- There is nothing to fetch in an empty drive. -/
theorem ready_of_unloaded {bay : Bay M R W} (hloaded : bay.drive.isLoaded = false) :
    bay.ready = bay := by
  have hmedium : bay.drive.medium = none := by simpa [Drive.isLoaded] using hloaded
  unfold ready
  simp only [hmedium]

/-- A fetched buffer is ready. -/
theorem ready_of_fetched {bay : Bay M R W} (hfetched : bay.drive.fetched = true) :
    bay.ready = bay := by
  unfold ready
  split
  · rfl
  · rw [if_pos hfetched]

/-- A fetch that succeeds makes the buffer stand for its sector. -/
theorem ready_of_fetch {bay : Bay M R W} {medium medium' : M} {delivered : Bytes} {count : Nat}
    {site : Site R W} (hmedium : bay.drive.medium = some medium)
    (hfetched : bay.drive.fetched = false)
    (hfetch : Medium.fetch medium bay.site bay.drive.offset sectorSize =
      ⟨delivered, .ok count, medium', site⟩) :
    bay.ready =
      ⟨{ bay.drive.received (.ofDelivered delivered) true with medium := some medium' }, site⟩ := by
  unfold ready fetchSector
  simp only [hmedium, hfetched, Bool.false_eq_true, if_false, hfetch, Drive.received, Bool.or_true]

/-- On the shell of the drive, a fetch that succeeds leaves the bytes that were delivered. -/
theorem shell_ready_of_fetch {bay : Bay M R W} {medium medium' : M} {delivered : Bytes}
    {count : Nat} {site : Site R W} (hmedium : bay.drive.medium = some medium)
    (hfetched : bay.drive.fetched = false)
    (hfetch : Medium.fetch medium bay.site bay.drive.offset sectorSize =
      ⟨delivered, .ok count, medium', site⟩) :
    bay.ready.drive.shell = bay.drive.shell.received (.ofDelivered delivered) true := by
  rw [ready_of_fetch hmedium hfetched hfetch, ← Drive.shell_received]
  apply Drive.shell_withMedium
  rw [Drive.medium_received, hmedium]
  rfl

/-- A fetch that fails leaves in the buffer what was delivered, and the operator is told. -/
theorem ready_of_failed_fetch {bay : Bay M R W} {medium medium' : M} {delivered : Bytes}
    {cause : DiskError} {site : Site R W} (hmedium : bay.drive.medium = some medium)
    (hfetched : bay.drive.fetched = false)
    (hfetch : Medium.fetch medium bay.site bay.drive.offset sectorSize =
      ⟨delivered, .error cause, medium', site⟩) :
    bay.ready =
      ⟨{ bay.drive.received (.ofDelivered delivered) false with medium := some medium' },
        site.note [.readFailed bay.drive.number bay.drive.offset cause]⟩ := by
  unfold ready fetchSector
  simp only [hmedium, hfetched, Bool.false_eq_true, if_false, hfetch, Drive.received,
    Bool.or_false]

/-- Whether it fails or not, a fetch leaves the medium and what is around it as the medium left
them. -/
theorem ready_leaves {bay : Bay M R W} {medium : M} (hmedium : bay.drive.medium = some medium)
    (hfetched : bay.drive.fetched = false) :
    let fetched := Medium.fetch medium bay.site bay.drive.offset sectorSize
    bay.ready.site.shared = fetched.site.shared ∧ bay.ready.site.host = fetched.site.host ∧
      bay.ready.drive.medium = some fetched.medium := by
  unfold ready fetchSector
  simp only [hmedium, hfetched, Bool.false_eq_true, if_false]
  split <;> next heq => rw [heq]; exact ⟨rfl, rfl, rfl⟩

/-- A buffer that has not been fetched is made ready by a fetch. -/
theorem ready_drive {bay : Bay M R W} (hloaded : bay.drive.isLoaded = true)
    (hfetched : bay.drive.fetched = false) :
    ∃ buffer complete medium, bay.ready.drive =
      { bay.drive.received buffer complete with medium := some medium } := by
  obtain ⟨medium, hmedium⟩ := Option.isSome_iff_exists.mp hloaded
  unfold ready fetchSector
  simp only [hmedium, hfetched, Bool.false_eq_true, if_false]
  split
  · next delivered _ medium _ _ =>
    refine ⟨.ofDelivered delivered, true, medium, ?_⟩
    simp only [Drive.received, hfetched, Bool.false_or]
  · next delivered _ medium _ _ =>
    refine ⟨.ofDelivered delivered, false, medium, ?_⟩
    simp only [Drive.received, hfetched, Bool.false_or]

/-- Making the buffer ready changes neither what is pending nor where. -/
theorem pending_ready (bay : Bay M R W) :
    bay.ready.drive.dirty = bay.drive.dirty ∧ bay.ready.drive.offset = bay.drive.offset := by
  cases hloaded : bay.drive.isLoaded with
  | false => rw [ready_of_unloaded hloaded]; exact ⟨rfl, rfl⟩
  | true =>
    cases hfetched : bay.drive.fetched with
    | true => rw [ready_of_fetched hfetched]; exact ⟨rfl, rfl⟩
    | false =>
      obtain ⟨buffer, complete, medium, hdrive⟩ := ready_drive hloaded hfetched
      rw [hdrive]
      exact ⟨rfl, rfl⟩

/-- Making the buffer ready leaves a loaded drive loaded and an empty one empty. -/
@[simp] theorem isLoaded_ready (bay : Bay M R W) :
    bay.ready.drive.isLoaded = bay.drive.isLoaded := by
  cases hloaded : bay.drive.isLoaded with
  | false => rw [ready_of_unloaded hloaded, hloaded]
  | true =>
    cases hfetched : bay.drive.fetched with
    | true => rw [ready_of_fetched hfetched, hloaded]
    | false =>
      obtain ⟨buffer, complete, medium, hdrive⟩ := ready_drive hloaded hfetched
      rw [hdrive]
      rfl

/-- What an empty drive does: nothing. -/
theorem unloaded {bay : Bay M R W} (hloaded : bay.drive.isLoaded = false) :
    (∀ control, bay.function control = bay) ∧ bay.nextSector = (Position.noDisk, bay) ∧
      (∀ byte, bay.writeByte byte = bay) ∧ bay.readByte = (.ok noDiskByte, bay) := by
  have hmedium : bay.drive.medium = none := by simpa [Drive.isLoaded] using hloaded
  refine ⟨fun control => ?_, ?_, fun byte => ?_, ?_⟩
  · simp [function, hloaded]
  · simp [nextSector, hloaded]
  · simp [writeByte, hloaded]
  · simp [readByte, hmedium]

/-- Taking the medium out of a drive is a flush that leaves an empty drive. -/
theorem takeMedium_eq (bay : Bay M R W) :
    bay.takeMedium =
      (bay.flush.drive.medium, ⟨{ number := bay.drive.number }, bay.flush.site⟩) := by
  obtain ⟨hnumber, _⟩ := bay.registers_flush
  rw [← hnumber]
  rfl

/-- The bay with the medium released and the drive left empty. -/
def vacate (bay : Bay M R W) : Bay M R W :=
  ⟨{ number := bay.drive.number },
    match bay.drive.medium with
    | none => bay.site
    | some medium => (Medium.release medium bay.site).2⟩

/-- The drive of a vacated bay is empty. -/
@[simp] theorem drive_vacate (bay : Bay M R W) :
    bay.vacate.drive = { number := bay.drive.number } := rfl

/-- Taking the medium out of a drive flushes and vacates the bay; the medium comes back. -/
theorem eject_eq (bay : Bay M R W) :
    bay.eject =
      (bay.flush.drive.medium.map fun medium => (Medium.release medium bay.flush.site).1,
        bay.flush.vacate) := by
  obtain ⟨hnumber, _⟩ := bay.registers_flush
  unfold eject vacate
  rw [takeMedium_eq, ← hnumber]
  cases hmedium : bay.flush.drive.medium <;> rfl

/-- Putting a medium into a drive flushes and vacates the bay first. -/
theorem load_eq (bay : Bay M R W) (medium : M) :
    bay.load medium = bay.flush.vacate.update (Drive.holding medium) := by
  obtain ⟨hnumber, _⟩ := bay.registers_flush
  unfold load vacate
  rw [takeMedium_eq, ← hnumber]
  rfl

/-- A medium that is put into a drive is in a drive at its start. -/
theorem drive_load (bay : Bay M R W) (medium : M) :
    (bay.load medium).drive = Drive.holding medium { number := bay.drive.number } := by
  obtain ⟨hnumber, _⟩ := bay.registers_flush
  rw [load_eq, drive_update, drive_vacate, hnumber]

/-- Taking the medium out of a drive leaves an empty one. -/
theorem drive_eject (bay : Bay M R W) : bay.eject.2.drive = { number := bay.drive.number } := by
  obtain ⟨hnumber, _⟩ := bay.registers_flush
  rw [eject_eq, drive_vacate, hnumber]

end Bay

end HardSector
