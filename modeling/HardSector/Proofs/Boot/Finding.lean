import HardSector.Proofs.Bus.Access
import HardSector.Proofs.Controller.Positioning
import HardSector.Proofs.Controller.Steady

/-!
# Finding a sector of drive 0

From any state that a controller can be in, homing takes the head of a loaded drive 0 to
track zero within its limit, stepping in brings it to the track, and the sector comes round
before the wait is given up. What was pending is stored on the way, and nothing else is: a
flush at any later moment would leave the media as a flush at the start would have left
them.
-/

namespace HardSector

/-! ## Media after a flush -/

namespace Bay

variable {M R W : Type} [Medium M R W] {bay : Bay M R W}

/-- A pending sector is stored by a flush, whether that fails or not. -/
theorem flush_of_dirty {medium : M} {stored : Stored M R W} (hdirty : bay.drive.dirty = true)
    (hmedium : bay.drive.medium = some medium)
    (hstored : Medium.store medium bay.site bay.drive.offset bay.drive.buffer.sector = stored) :
    bay.flush.drive.medium = some stored.medium ∧
      bay.flush.site.shared = stored.site.shared ∧ bay.flush.site.host = stored.site.host := by
  rw [flush_eq, if_pos hdirty, storeSector_of_some hmedium, hstored]
  obtain ⟨_ | _, _, _⟩ := stored <;> exact ⟨rfl, rfl, rfl⟩

/-- The medium of a bay and its site after a flush. -/
def rest (bay : Bay M R W) : Option M × Site R W := (bay.flush.drive.medium, bay.flush.site)

/-- The medium of a bay and its site are at rest where nothing is pending. -/
theorem rest_of_clean (hclean : bay.drive.dirty = false) :
    bay.rest = (bay.drive.medium, bay.site) := by
  unfold rest
  rw [flush_of_clean hclean]

/-- A flush and a move of the head leave what the flush leaves. -/
theorem rest_flush_move (bay : Bay M R W) (move : Drive.Move)
    (hclean : (bay.flush.drive.move move).dirty = false) :
    (bay.flush.update (Drive.move move)).rest = bay.rest := by
  rw [rest_of_clean hclean, drive_update, Drive.medium_move]
  rfl

/-- A flush does not care about the commands of a control byte that do not move the head. -/
theorem rest_commanded (bay : Bay M R W) (control : Control) :
    (bay.update (Drive.commanded control)).rest = bay.rest := by
  unfold rest
  rw [flush_eq, flush_eq]
  cases hdirty : bay.drive.dirty with
  | false =>
    have hclean : (bay.update (Drive.commanded control)).drive.dirty = false := hdirty
    rw [hclean]
    rfl
  | true =>
    have hpending : (bay.update (Drive.commanded control)).drive.dirty = true := hdirty
    rw [hpending, if_pos rfl, if_pos rfl]
    cases hmedium : bay.drive.medium with
    | none =>
      rw [storeSector_of_none hmedium, storeSector_of_none (by exact hmedium)]
      rfl
    | some medium =>
      have hsame : (bay.update (Drive.commanded control)).drive.medium = some medium := hmedium
      rw [storeSector_of_some hmedium, storeSector_of_some hsame]
      simp only [drive_update, site_update, Drive.commanded]
      split <;> rfl

/-- A control byte leaves for a flush what was there for it before, or has flushed already. -/
theorem rest_function (control : Control) (hloaded : bay.drive.isLoaded = true) :
    (bay.function control).rest = bay.rest := by
  have hin (bay : Bay M R W) : bay.stepIn.rest = bay.rest := by
    rw [stepIn_eq]
    exact bay.rest_flush_move .stepIn bay.dirty_flush
  have hout (bay : Bay M R W) : bay.stepOut.rest = bay.rest := by
    rw [stepOut_eq]
    exact bay.rest_flush_move .stepOut bay.dirty_flush
  rw [function_eq control hloaded, rest_commanded]
  cases control.stepIn <;> cases control.stepOut <;>
    simp only [if_true, Bool.false_eq_true, if_false, id_eq, hin, hout]

/-- Letting the next sector come flushes. -/
theorem rest_nextSector (hloaded : bay.drive.isLoaded = true) :
    bay.nextSector.2.rest = bay.rest := by
  rw [nextSector_eq hloaded]
  exact bay.rest_flush_move .advance bay.dirty_flush

end Bay

namespace Controller

variable {M R W : Type} [Medium M R W] {h : Hosted (Controller M R) W}

/-- What leaves a bay the same to a flush leaves the media the same to it. -/
theorem rack_flush_onBay {n : Fin driveCount} {act : Bay M R W → Bay M R W}
    (hrest : (act (bay h n)).rest = (bay h n).rest) :
    rack (onBay n Bay.flush (onBay n act h)) = rack (onBay n Bay.flush h) := by
  rw [← onBay_comp, rack_onBay, rack_onBay]
  exact congrArg
    (fun rest : Option M × Site R W => (rack h).put n rest.1 rest.2.shared rest.2.host) hrest

/-- A controller on the way to a sector of drive 0: the drive is selected and loaded, its head is at
some track, and a flush of the drive leaves the media in a certain way. -/
structure Seeking (r : Boot.Registers) (rest : Rack M R W) (track : Nat)
    (h : Hosted (Controller M R) W) : Prop where
  located : Located r h.device
  selected : h.device.selected = 0
  loaded : h.device.selectedDrive.isLoaded = true
  sound : Sound h
  honest : Honest h
  track_eq : h.device.selectedDrive.track = track
  settled : rack (onBay 0 Bay.flush h) = rest

namespace Seeking

variable {r : Boot.Registers} {rest : Rack M R W} {track : Nat}

/-- The selected drive is drive 0. -/
theorem drive_zero (hs : Seeking r rest track h) : h.device.selectedDrive = (bay h 0).drive :=
  congrArg (fun n => (bay h n).drive) hs.selected

/-- Drive 0 is loaded. -/
theorem loaded_zero (hs : Seeking r rest track h) : (bay h 0).drive.isLoaded = true := by
  rw [← hs.drive_zero]
  exact hs.loaded

/-- A control byte steps the head. -/
theorem function (hs : Seeking r rest track h) (byte : UInt8) :
    Seeking r rest (trackAfter (Control.ofByte byte) track) (obey h (.function byte)).2 := by
  obtain ⟨hselected, hloaded, htrack⟩ := obey_function hs.loaded byte
  have hbay : (obey h (.function byte)).2 =
      onBay h.device.selected (fun bay => bay.function (Control.ofByte byte)) h := rfl
  refine ⟨hs.located.obey _, hselected.trans hs.selected, hloaded,
    hs.sound.perform (.command (.function byte)), hs.honest.perform (.command (.function byte)),
    ?_, ?_⟩
  · rw [htrack, hs.track_eq]
  · rw [hbay, hs.selected, rack_flush_onBay]
    · exact hs.settled
    · exact Bay.rest_function _ hs.loaded_zero

/-- The next sector comes under the head, and the register names it. -/
theorem sector (hs : Seeking r rest track h) :
    (Controller.sector h).1 =
        Position.encode (UInt8.ofNat h.device.selectedDrive.coming) true ∧
      Seeking r rest track (obey h .sector).2 ∧
      (obey h .sector).2.device.selectedDrive.Positioned track h.device.selectedDrive.coming := by
  obtain ⟨hregister, hpositioned⟩ := obey_sector hs.loaded
  rw [hs.track_eq] at hpositioned
  have hbay : (obey h .sector).2 =
      onBay h.device.selected (fun bay => bay.nextSector.2) h := rfl
  refine ⟨Reply.byte.inj hregister, ⟨hs.located.obey _, hs.selected, hpositioned.loaded,
    hs.sound.perform (.command .sector), hs.honest.perform (.command .sector),
    hpositioned.track_eq, ?_⟩, hpositioned⟩
  rw [hbay, hs.selected, rack_flush_onBay]
  · exact hs.settled
  · exact Bay.rest_nextSector hs.loaded_zero

/-! ## Tracks -/

/-- Homing looks at the status and steps out until the head is over track zero. As it looks once for
every track there is, it does not give up before. -/
theorem homeWithin (hs : Seeking r rest track h) {limit : Nat} (hlimit : track < limit) :
    ∃ h', Boot.homeWithin r limit h = (.ok (), h') ∧ Seeking r rest 0 h' := by
  induction limit generalizing track h with
  | zero => omega
  | succ limit ih =>
    have hline : Status.isAsserted ⟨h.device.status⟩ .trackZero = decide (track = 0) := by
      rw [← hs.track_eq]
      exact hs.honest h.device.selected hs.loaded
    unfold Boot.homeWithin
    rw [Boot.andThen_of_ok hs.located.input_status, hline]
    by_cases hzero : track = 0
    · subst hzero
      exact ⟨h, rfl, hs⟩
    · rw [decide_eq_false hzero, if_neg Bool.false_ne_true,
        Boot.andThen_of_ok (hs.located.output_sector Boot.stepOut)]
      have hout : trackAfter (Control.ofByte Boot.stepOut) track = track - 1 := by
        unfold Boot.stepOut trackAfter
        rw [Control.ofByte_toByte]
        rfl
      have hstepped := hs.function Boot.stepOut
      rw [hout] at hstepped
      exact ih hstepped (by omega)

/-- Stepping in takes the head as many tracks in, as far as the innermost. -/
theorem stepInTimes (hs : Seeking r rest track h) (htrack : track ≤ 76) (count : Nat) :
    ∃ h', Boot.stepInTimes r count h = (.ok (), h') ∧
      Seeking r rest (min (track + count) 76) h' := by
  induction count generalizing track h with
  | zero =>
    rw [Nat.add_zero, Nat.min_eq_left htrack]
    exact ⟨h, rfl, hs⟩
  | succ count ih =>
    unfold Boot.stepInTimes
    rw [Boot.andThen_of_ok (hs.located.output_sector Boot.stepIn)]
    have hin : trackAfter (Control.ofByte Boot.stepIn) track = min (track + 1) 76 := by
      unfold Boot.stepIn trackAfter
      rw [Control.ofByte_toByte]
      rfl
    have hstepped := hs.function Boot.stepIn
    rw [hin] at hstepped
    obtain ⟨h', hsteps, hlast⟩ := ih hstepped (by omega)
    refine ⟨h', hsteps, ?_⟩
    rwa [show min (min (track + 1) 76 + count) 76 = min (track + (count + 1)) 76 by omega] at hlast

/-! ## Sectors -/

/-- Whether the position register shows the start of a sector. -/
def shows (sector register : UInt8) : Bool :=
  Position.atStart register && Position.sector register == sector

/-- The register shows the sector that came. -/
theorem shows_encode (sector : UInt8) {s : Nat} (hs : s < 32) :
    shows sector (Position.encode (UInt8.ofNat s) true) = (UInt8.ofNat s == sector) := by
  unfold shows
  rw [Position.atStart_encode hs, Position.sector_encode hs, Bool.true_and]

/-- A sector of the track comes round while the wait lasts, if it lasts for a turn from where the
disk stands. -/
theorem poll_sector (hs : Seeking r rest track h) {s : Nat} (hsector : s < 32)
    (failure : BootError) {limit : Nat}
    (hlimit : (s + 32 - h.device.selectedDrive.coming) % 32 < limit) :
    ∃ register h', Boot.poll r.sector (shows (UInt8.ofNat s)) failure limit h =
        (.ok register, h') ∧
      Seeking r rest track h' ∧ h'.device.selectedDrive.Positioned track s := by
  induction limit generalizing h with
  | zero => omega
  | succ limit ih =>
    have hlt := h.device.selectedDrive.coming_lt
    obtain ⟨hregister, hnext, hpositioned⟩ := hs.sector
    have hinput := hs.located.input_sector
    rw [hregister] at hinput
    by_cases hcomes : h.device.selectedDrive.coming = s
    · subst hcomes
      refine ⟨_, _, Boot.poll_of_wanted hinput ?_ limit, hnext, hpositioned⟩
      rw [shows_encode _ hlt, beq_self_eq_true]
    · have hunwanted : shows (UInt8.ofNat s)
          (Position.encode (UInt8.ofNat h.device.selectedDrive.coming) true) = false := by
        rw [shows_encode _ hlt, beq_eq_false_iff_ne]
        intro heq
        refine hcomes (Position.encode_inj hlt hsector ?_)
        rw [heq]
      rw [Boot.poll_of_unwanted hinput hunwanted]
      obtain ⟨_, _, _, hround⟩ := coming_after_sectors hs.loaded 1
      have hround : (obey h .sector).2.device.selectedDrive.coming =
          (h.device.selectedDrive.coming + 1) % 32 := hround
      exact ih hnext (by omega)

/-- A sector that no track has is waited for in vain. -/
theorem poll_missing_sector (hs : Seeking r rest track h) {sector : UInt8}
    (hsector : 32 ≤ sector.toNat) (failure : BootError) (limit : Nat) :
    (Boot.poll r.sector (shows sector) failure limit h).1 = .error failure := by
  induction limit generalizing h with
  | zero => rfl
  | succ limit ih =>
    have hlt := h.device.selectedDrive.coming_lt
    obtain ⟨hregister, hnext, _⟩ := hs.sector
    have hinput := hs.located.input_sector
    rw [hregister] at hinput
    have hunwanted : shows sector
        (Position.encode (UInt8.ofNat h.device.selectedDrive.coming) true) = false := by
      rw [shows_encode _ hlt, beq_eq_false_iff_ne]
      rintro rfl
      rw [UInt8.toNat_ofNat_of_lt' (Nat.lt_trans hlt (by decide))] at hsector
      omega
    rw [Boot.poll_of_unwanted hinput hunwanted]
    exact ih hnext

end Seeking

/-! ## Selecting the drive -/

variable {r : Boot.Registers}

/-- The command to load the head shows in the status. -/
theorem isAsserted_headLoad (drive : Drive M) :
    (drive.move (.obey (Control.ofByte Boot.headLoad))).status.isAsserted .headStatus = true := by
  unfold Boot.headLoad
  rw [Control.ofByte_toByte]
  change ((drive.status.assert .headStatus).assert .readDataAvailable).isAsserted .headStatus = true
  rw [Status.isAsserted_assert_of_ne _ (by decide), Status.isAsserted_assert_self]

/-- The head of a loaded drive 0 is loaded at the first look, and what is pending stays so. The disk
turns no further meanwhile. -/
theorem selectAndLoad_of_loaded (hl : Located r h.device) (hsound : Sound h) (hhonest : Honest h)
    (hloaded : (bay h 0).drive.isLoaded = true) :
    ∃ h', Boot.selectAndLoad r 0 h = (.ok (), h') ∧
      Seeking r (rack (onBay 0 Bay.flush h)) (bay h 0).drive.track h' ∧
      h'.device.selectedDrive.coming = (bay h 0).drive.coming := by
  have hselect : Seeking r (rack (onBay 0 Bay.flush h)) (bay h 0).drive.track
      (obey h (.select 0)).2 :=
    ⟨hl.obey _, rfl, hloaded, hsound.perform (.command (.select 0)),
      hhonest.perform (.command (.select 0)), rfl, rfl⟩
  have hhead := hselect.function Boot.headLoad
  have hstill : trackAfter (Control.ofByte Boot.headLoad) (bay h 0).drive.track =
      (bay h 0).drive.track := by
    unfold Boot.headLoad trackAfter
    rw [Control.ofByte_toByte]
    rfl
  rw [hstill] at hhead
  have hdrive : (obey (obey h (.select 0)).2 (.function Boot.headLoad)).2.device.selectedDrive =
      (bay h 0).drive.move (.obey (Control.ofByte Boot.headLoad)) := by
    have hfunction : (obey (obey h (.select 0)).2 (.function Boot.headLoad)).2 = _ :=
      obey_function_of_still hselect.loaded (by decide) (by decide)
    rw [hfunction]
    exact congrArg Bay.drive (bay_onBay_self _ _ _)
  refine ⟨_, ?_, hhead, (congrArg Drive.coming hdrive).trans rfl⟩
  have hline : Status.isAsserted
      ⟨(obey (obey h (.select 0)).2 (.function Boot.headLoad)).2.device.status⟩ .headStatus =
        true := by
    refine Eq.trans (congrArg (fun drive => drive.status.isAsserted .headStatus) hdrive) ?_
    exact isAsserted_headLoad _
  have hpoll : Boot.poll r.status (fun status => Status.isAsserted ⟨status⟩ .headStatus)
      (.headNotLoaded 0) pollLimit (obey (obey h (.select 0)).2 (.function Boot.headLoad)).2 = _ :=
    Boot.poll_of_wanted hhead.located.input_status hline 1023
  unfold Boot.selectAndLoad
  rw [Boot.andThen_of_ok (hl.output_status 0),
    Boot.andThen_of_ok (hselect.located.output_sector Boot.headLoad), Boot.andThen_of_ok hpoll]

/-- A boot from a loaded drive 0 takes the sector that comes next on the track that its head is
over, and reports it. -/
theorem load_over_sector (hl : Located r h.device) (hsound : Sound h) (hhonest : Honest h)
    (hloaded : (bay h 0).drive.isLoaded = true) (memory : Bytes) :
    ∃ h', Seeking r (rack (onBay 0 Bay.flush h)) (bay h 0).drive.track h' ∧
      h'.device.selectedDrive.Positioned (bay h 0).drive.track (bay h 0).drive.coming ∧
      Boot.load r memory h =
        Boot.andThen (Boot.transfer r sectorSize #[])
          (fun bytes space => (.ok (⟨UInt8.ofNat (bay h 0).drive.coming, sectorSize, 0⟩,
            memory.splice 0 bytes), space)) h' := by
  obtain ⟨selected, hselect, hseeking, hcoming⟩ :=
    selectAndLoad_of_loaded hl hsound hhonest hloaded
  obtain ⟨hregister, hnext, hpositioned⟩ := hseeking.sector
  rw [hcoming] at hregister hpositioned
  have hlt := (bay h 0).drive.coming_lt
  have hinput := hseeking.located.input_sector
  rw [hregister] at hinput
  have hpoll : Boot.poll r.sector Position.atStart (.sectorTimeout 0) pollLimit selected = _ :=
    Boot.poll_of_wanted hinput (Position.atStart_encode hlt true) 1023
  refine ⟨_, hnext, hpositioned, ?_⟩
  unfold Boot.load
  rw [Boot.andThen_of_ok hselect, Boot.andThen_of_ok hpoll, Position.sector_encode hlt]

/-- The head of an empty drive 0 is never loaded. -/
theorem selectAndLoad_of_empty (hl : Located r h.device) (hsound : Sound h)
    (hempty : (bay h 0).drive.isLoaded = false) :
    (Boot.selectAndLoad r 0 h).1 = .error (.headNotLoaded 0) := by
  have hfunction : (obey (obey h (.select 0)).2 (.function Boot.headLoad)).2 =
      (obey h (.select 0)).2 := by
    have hstill : (bay (obey h (.select 0)).2 0).function (Control.ofByte Boot.headLoad) =
        bay (obey h (.select 0)).2 0 := (Bay.unloaded hempty).1 _
    change onBay 0 (fun bay => bay.function (Control.ofByte Boot.headLoad))
      (obey h (.select 0)).2 = _
    exact onBay_of_eq hstill
  have hidle : Status.isAsserted ⟨(obey h (.select 0)).2.device.status⟩ .headStatus = false := by
    have hstatus : (bay h 0).drive.status = .idle :=
      congrArg Drive.status ((hsound 0).blank_of_unloaded hempty)
    change (bay h 0).drive.status.isAsserted .headStatus = false
    rw [hstatus]
    decide
  have hwait (limit : Nat) : Boot.poll r.status
      (fun status => Status.isAsserted ⟨status⟩ .headStatus) (.headNotLoaded 0) limit
        (obey h (.select 0)).2 = (.error (.headNotLoaded 0), (obey h (.select 0)).2) := by
    induction limit with
    | zero => rfl
    | succ limit ih =>
      exact (Boot.poll_of_unwanted (hl.obey (.select 0)).input_status hidle limit).trans ih
  have hoff := (hl.obey (.select 0)).output_sector Boot.headLoad
  rw [hfunction] at hoff
  unfold Boot.selectAndLoad
  rw [Boot.andThen_of_ok (hl.output_status 0), Boot.andThen_of_ok hoff,
    Boot.andThen_of_error (hwait _)]

end Controller

end HardSector
