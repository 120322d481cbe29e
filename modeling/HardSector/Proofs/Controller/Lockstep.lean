import HardSector.Proofs.Controller.Steady

/-!
# Two kinds of media in lockstep

Two controllers over different kinds of media go in lockstep while the same drive is
selected, their drives differ in nothing but their media, and these show the same sectors.
Every command is then answered alike and keeps the controllers in lockstep, as long as
both kinds of media have room for what is stored.
-/

namespace HardSector

/-! ## What is answered -/

namespace Drive

variable {M : Type}

/-- What the position register of a drive reads. -/
def position (drive : Drive M) : UInt8 :=
  if drive.isLoaded then Position.encode (UInt8.ofNat drive.coming) true else Position.noDisk

/-- What a read brings from a buffer that is ready. -/
def delivers (drive : Drive M) : Except Fault UInt8 :=
  if drive.isLoaded then
    match drive.buffer[drive.pointer]? with
    | none => .error .bufferOverrun
    | some byte => .ok byte
  else .ok noDiskByte

theorem position_shell (drive : Drive M) : drive.shell.position = drive.position := by
  unfold position
  rw [isLoaded_shell]
  rfl

theorem delivers_shell (drive : Drive M) : drive.shell.delivers = drive.delivers := by
  unfold delivers
  rw [isLoaded_shell]
  rfl

end Drive

namespace Bay

variable {M R W : Type} [Medium M R W] (bay : Bay M R W)

/-- The position register is read off the drive. -/
theorem nextSector_fst : bay.nextSector.1 = bay.drive.position := by
  unfold Drive.position
  cases hloaded : bay.drive.isLoaded with
  | false => rw [(unloaded hloaded).2.1]; rfl
  | true => rw [nextSector_eq hloaded]; rfl

/-- A read byte comes from the buffer once it is ready. -/
theorem readByte_fst : bay.readByte.1 = bay.ready.drive.delivers := by
  unfold Drive.delivers
  rw [isLoaded_ready]
  cases hloaded : bay.drive.isLoaded with
  | false => rw [(unloaded hloaded).2.2.2]; rfl
  | true =>
    rw [readByte_eq hloaded, if_pos rfl]
    cases bay.ready.drive.buffer[bay.ready.drive.pointer]? <;> rfl

end Bay

/-- The motions of a command do not depend on the medium. -/
theorem Command.motions_shell {M : Type} (drive : Drive M) (command : Command) :
    command.motions drive.shell = command.motions drive := by
  cases command with
  | select byte => rfl
  | status => rfl
  | function byte =>
    unfold motions Drive.functionMotions
    rw [Drive.isLoaded_shell]
  | sector =>
    unfold motions Drive.sectorMotions
    rw [Drive.isLoaded_shell]
  | read =>
    unfold motions Drive.readMotions
    rw [Drive.isLoaded_shell]
    rfl
  | write byte =>
    unfold motions Drive.writeMotions
    rw [Drive.isLoaded_shell]
    rfl
  | flush => rfl

namespace Controller

variable {M R W M' R' W' : Type} [Medium M R W] [Medium M' R' W']

/-- Two controllers over different kinds of media that cannot be told apart. -/
structure Lockstep (S : Sectored M R W) (S' : Sectored M' R' W') (places : Finset Place)
    (h : Hosted (Controller M R) W) (h' : Hosted (Controller M' R') W') : Prop where
  steady : Steady S places h
  steady' : Steady S' places h'
  selected_eq : h'.device.selected = h.device.selected
  shell_eq : ∀ n, (bay h' n).drive.shell = (bay h n).drive.shell
  view_eq : ∀ n k, view S' h' n k = view S h n k

namespace Lockstep

variable {S : Sectored M R W} {S' : Sectored M' R' W'} {places : Finset Place}
  {h : Hosted (Controller M R) W} {h' : Hosted (Controller M' R') W'}

/-- The buffers lie at the same sectors. -/
theorem place_eq (hl : Lockstep S S' places h h') (n : Fin driveCount) :
    (bay h' n).drive.place = (bay h n).drive.place :=
  congrArg Drive.place (hl.shell_eq n)

/-- The same drives have something to store. -/
theorem dirty_eq (hl : Lockstep S S' places h h') (n : Fin driveCount) :
    (bay h' n).drive.dirty = (bay h n).drive.dirty :=
  congrArg Drive.dirty (hl.shell_eq n)

/-- The same is pending. -/
theorem pending_eq (hl : Lockstep S S' places h h') (n : Fin driveCount) :
    pending h' n = pending h n := by
  unfold pending
  rw [hl.dirty_eq, hl.place_eq]

/-- The same drives are loaded. -/
theorem isLoaded_eq (hl : Lockstep S S' places h h') (n : Fin driveCount) :
    (bay h' n).drive.isLoaded = (bay h n).drive.isLoaded := by
  rw [← Drive.isLoaded_shell, hl.shell_eq n, Drive.isLoaded_shell]

/-- Something done to a drive of both controllers that leaves like shells leaves like shells of all
drives. -/
theorem shell_onBay (hl : Lockstep S S' places h h') {n : Fin driveCount}
    {act : Bay M R W → Bay M R W} {act' : Bay M' R' W' → Bay M' R' W'}
    (hact : (act' (bay h' n)).drive.shell = (act (bay h n)).drive.shell) (m : Fin driveCount) :
    (bay (onBay n act' h') m).drive.shell = (bay (onBay n act h) m).drive.shell := by
  rw [drive_onBay, drive_onBay]
  split
  · exact hact
  · exact hl.shell_eq m

/-! ## Motions -/

/-- A move of both drives. -/
theorem move (hl : Lockstep S S' places h h') {n : Fin driveCount} {move : Drive.Move}
    (hsound : ((bay h n).drive.move move).Sound) :
    Lockstep S S' places (onBay n (Bay.update (Drive.move move)) h)
      (onBay n (Bay.update (Drive.move move)) h') := by
  have hshell : ((bay h' n).drive.move move).shell = ((bay h n).drive.move move).shell := by
    rw [Drive.shell_move, hl.shell_eq, Drive.shell_move]
  refine ⟨hl.steady.move hsound, hl.steady'.move (hsound.congr hshell), hl.selected_eq,
    hl.shell_onBay hshell, fun m k => ?_⟩
  rw [view, rack_move, view, rack_move]
  exact hl.view_eq m k

/-- A flush of both drives, with room in both. -/
theorem flush (hl : Lockstep S S' places h h') {n : Fin driveCount}
    (hfits : S.Fits (pending h n ∪ places)) (hfits' : S'.Fits (pending h n ∪ places)) :
    Lockstep S S' (pending h n ∪ places) (onBay n Bay.flush h) (onBay n Bay.flush h') := by
  obtain ⟨kept, hsteady, hroom, _, hview⟩ := hl.steady.flush n
  obtain ⟨kept', hsteady', hroom', _, hview'⟩ := hl.steady'.flush n
  rw [hl.pending_eq] at hsteady' hroom'
  refine ⟨hsteady, hsteady', hl.selected_eq, hl.shell_onBay ?_, fun m k => ?_⟩
  · rw [Bay.shell_flush, Bay.shell_flush, hl.shell_eq]
  · have hwindow : (bay h' n).drive.buffer.window = (bay h n).drive.buffer.window :=
      congrArg (fun drive => drive.buffer.window) (hl.shell_eq n)
    rw [hview, hview', hroom hfits, hroom' hfits', hl.dirty_eq, hl.place_eq, hwindow, hl.view_eq]

/-- Making the buffers of both drives ready. -/
theorem ready (hl : Lockstep S S' places h h') (n : Fin driveCount) :
    Lockstep S S' places (onBay n Bay.ready h) (onBay n Bay.ready h') := by
  obtain ⟨hsteady, _, hview, hshell⟩ := hl.steady.ready n
  obtain ⟨hsteady', _, hview', hshell'⟩ := hl.steady'.ready n
  refine ⟨hsteady, hsteady', hl.selected_eq, hl.shell_onBay ?_, fun m k => ?_⟩
  · have hfetched : (bay h' n).drive.fetched = (bay h n).drive.fetched :=
      congrArg Drive.fetched (hl.shell_eq n)
    cases hstands : (bay h n).drive.fetched with
    | true =>
      rw [Bay.ready_of_fetched hstands, Bay.ready_of_fetched (hfetched.trans hstands)]
      exact hl.shell_eq n
    | false =>
      cases hbytes : view S h n (bay h n).drive.place with
      | none =>
        have hempty : (bay h n).drive.isLoaded = false := by
          rw [← isSome_view S h n (bay h n).drive.place, hbytes]
          rfl
        rw [Bay.ready_of_unloaded hempty,
          Bay.ready_of_unloaded ((hl.isLoaded_eq n).trans hempty)]
        exact hl.shell_eq n
      | some bytes =>
        have hbytes' : view S' h' n (bay h' n).drive.place = some bytes := by
          rw [hl.view_eq, hl.place_eq, hbytes]
        have hfirst := hshell bytes hbytes hstands
        have hsecond := hshell' bytes hbytes' (hfetched.trans hstands)
        rw [bay_onBay_self] at hfirst hsecond
        rw [hfirst, hsecond, hl.shell_eq]
  · rw [hview, hview', hl.view_eq]

/-- A motion of both drives, with room in both for what it stores. -/
theorem make (hl : Lockstep S S' places h h') {n : Fin driveCount} {motion : Motion}
    (hsound : ((bay h n).make motion).drive.Sound)
    (hfits : S.Fits (storedBy n h motion ∪ places))
    (hfits' : S'.Fits (storedBy n h motion ∪ places)) :
    Lockstep S S' (storedBy n h motion ∪ places) (onBay n (fun bay => bay.make motion) h)
      (onBay n (fun bay => bay.make motion) h') := by
  cases motion with
  | flush => exact hl.flush hfits hfits'
  | ready =>
    rw [storedBy, Finset.empty_union]
    exact hl.ready n
  | move move =>
    rw [storedBy, Finset.empty_union]
    exact hl.move hsound

/-- Motions of both drives. -/
theorem follow (hl : Lockstep S S' places h h') {n : Fin driveCount} {motions : List Motion}
    (halong : (bay h n).SoundAlong motions)
    (hfits : S.Fits (storedAlong n motions h ∪ places))
    (hfits' : S'.Fits (storedAlong n motions h ∪ places)) :
    Lockstep S S' (storedAlong n motions h ∪ places)
      (onBay n (fun bay => bay.follow motions) h)
      (onBay n (fun bay => bay.follow motions) h') := by
  induction motions generalizing h h' places with
  | nil =>
    rw [onBay_of_eq rfl, onBay_of_eq rfl, storedAlong, Finset.empty_union]
    exact hl
  | cons motion motions ih =>
    rw [storedAlong, Finset.union_assoc] at hfits hfits' ⊢
    rw [onBay_follow_cons, onBay_follow_cons]
    have hnext := hl.make halong.1 (S.fits_mono Finset.subset_union_right hfits)
      (S'.fits_mono Finset.subset_union_right hfits')
    refine ih hnext ?_ hfits hfits'
    rw [bay_onBay_self]
    exact halong.2

/-- Flushes of several drives of both controllers. -/
theorem flushEach (hl : Lockstep S S' places h h') {order : List (Fin driveCount)}
    (hfits : S.Fits (storedEach order h ∪ places))
    (hfits' : S'.Fits (storedEach order h ∪ places)) :
    Lockstep S S' (storedEach order h ∪ places)
      (order.foldl (fun h n => onBay n Bay.flush h) h)
      (order.foldl (fun h n => onBay n Bay.flush h) h') := by
  induction order generalizing h h' places with
  | nil =>
    rw [storedEach, Finset.empty_union]
    exact hl
  | cons n order ih =>
    rw [storedEach, Finset.union_assoc] at hfits hfits' ⊢
    have hnext := hl.flush (S.fits_mono Finset.subset_union_right hfits)
      (S'.fits_mono Finset.subset_union_right hfits')
    exact ih hnext hfits hfits'

/-! ## Commands -/

/-- The selected drives have like shells. -/
theorem shell_selectedDrive (hl : Lockstep S S' places h h') :
    h'.device.selectedDrive.shell = h.device.selectedDrive.shell := by
  have hshell : h'.device.selectedDrive.shell = (bay h' h.device.selected).drive.shell := by
    rw [← hl.selected_eq]
    rfl
  exact hshell.trans (hl.shell_eq _)

/-- A command is answered alike. -/
theorem reply_eq (hl : Lockstep S S' places h h') (command : Command) :
    (obey h' command).1 = (obey h command).1 := by
  cases command with
  | select byte => rfl
  | status => exact congrArg (fun drive => Reply.byte drive.status.bits) hl.shell_selectedDrive
  | function byte => rfl
  | sector =>
    have hposition : (bay h' h'.device.selected).nextSector.1 =
        (bay h h.device.selected).nextSector.1 := by
      rw [Bay.nextSector_fst, Bay.nextSector_fst, ← Drive.position_shell, hl.selected_eq,
        hl.shell_eq, Drive.position_shell]
    exact congrArg Reply.byte hposition
  | read =>
    have hshell := (hl.ready h.device.selected).shell_eq h.device.selected
    rw [bay_onBay_self, bay_onBay_self] at hshell
    have hdelivers : (bay h' h'.device.selected).readByte.1 =
        (bay h h.device.selected).readByte.1 := by
      rw [Bay.readByte_fst, Bay.readByte_fst, ← Drive.delivers_shell, hl.selected_eq, hshell,
        Drive.delivers_shell]
    exact congrArg Reply.ofResult hdelivers
  | write byte => rfl
  | flush => rfl

/-- A command keeps the controllers in lockstep, with room in both for what it stores. -/
theorem obey (hl : Lockstep S S' places h h') (command : Command)
    (hfits : S.Fits (stored h command ∪ places)) (hfits' : S'.Fits (stored h command ∪ places)) :
    Lockstep S S' (stored h command ∪ places) (obey h command).2 (obey h' command).2 := by
  have halong := soundAlong_motions (hl.steady.sound h.device.selected) command
  have hmotions : command.motions h'.device.selectedDrive =
      command.motions h.device.selectedDrive := by
    rw [← Command.motions_shell, hl.shell_selectedDrive, Command.motions_shell]
  rw [obey_eq, obey_eq]
  cases command with
  | select byte =>
    rw [stored_select, Finset.empty_union]
    exact ⟨⟨hl.steady.sound, hl.steady.sane⟩, ⟨hl.steady'.sound, hl.steady'.sane⟩, rfl,
      hl.shell_eq, hl.view_eq⟩
  | status =>
    rw [stored_status, Finset.empty_union]
    exact hl
  | flush => exact hl.flushEach hfits hfits'
  | _ =>
    simp only [hmotions, hl.selected_eq]
    exact hl.follow halong hfits hfits'

/-- Commands are answered alike and keep the controllers in lockstep, with room in both for what
they store. -/
theorem run (hl : Lockstep S S' places h h') {commands : List Command}
    (hfits : S.Fits (storedDuring h commands ∪ places))
    (hfits' : S'.Fits (storedDuring h commands ∪ places)) :
    Run.answers Controller.obey h' commands = Run.answers Controller.obey h commands ∧
      Lockstep S S' (storedDuring h commands ∪ places) (afterCommands h commands)
        (afterCommands h' commands) := by
  induction commands generalizing h h' places with
  | nil =>
    rw [storedDuring, Finset.empty_union]
    exact ⟨rfl, hl⟩
  | cons command commands ih =>
    rw [storedDuring, Finset.union_assoc] at hfits hfits' ⊢
    have hnext := hl.obey command (S.fits_mono Finset.subset_union_right hfits)
      (S'.fits_mono Finset.subset_union_right hfits')
    obtain ⟨hanswers, hlast⟩ := ih hnext hfits hfits'
    refine ⟨?_, hlast⟩
    rw [Run.answers, Run.answers, hl.reply_eq, hanswers]

end Lockstep

end Controller

end HardSector
