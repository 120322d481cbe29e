import HardSector.Proofs.Controller.Sound
import HardSector.Proofs.Drive.Head

/-!
# Putting the head over a sector

The sectors of a track come under the head one after the other and round again, and the
position register names them. From any state some commands bring a drive to a track, and
every sector of the track comes within one turn.
-/

namespace HardSector

/-- The head of a loaded drive is at the start of a sector, and nothing of it was transferred. -/
structure Drive.Positioned {M : Type} (drive : Drive M) (track sector : Nat) : Prop where
  loaded : drive.isLoaded = true
  track_eq : drive.track = track
  sector_eq : drive.sector = sector + 1
  offset_eq : drive.offset = Geometry.eightInch.offset track sector
  pointer_eq : drive.pointer = 0
  fetched_eq : drive.fetched = false
  dirty_eq : drive.dirty = false

/-- The sector that comes next is one of the track. -/
theorem Drive.coming_lt {M : Type} (drive : Drive M) : drive.coming < 32 := by
  unfold coming
  rw [Geometry.eightInch_sectors]
  split <;> omega

/-- The position register tells the sectors of a track apart. -/
theorem Position.encode_inj {s s' : Nat} (hs : s < 32) (hs' : s' < 32)
    (heq : encode (UInt8.ofNat s) true = encode (UInt8.ofNat s') true) : s = s' := by
  have hsector := sector_encode hs true
  rw [heq, sector_encode hs' true] at hsector
  have hnat := congrArg UInt8.toNat hsector
  rw [UInt8.toNat_ofNat_of_lt' (Nat.lt_trans hs' (by decide)),
    UInt8.toNat_ofNat_of_lt' (Nat.lt_trans hs (by decide))] at hnat
  exact hnat.symm

namespace Controller

variable {M R W : Type} [Medium M R W] {h : Hosted (Controller M R) W}

/-- The next sector comes under the head, and the register names it. -/
theorem obey_sector (hloaded : h.device.selectedDrive.isLoaded = true) :
    (obey h .sector).1 =
        .byte (Position.encode (UInt8.ofNat h.device.selectedDrive.coming) true) ∧
      (obey h .sector).2.device.selectedDrive.Positioned h.device.selectedDrive.track
        h.device.selectedDrive.coming := by
  have hnext :=
    Bay.nextSector_eq (show (bay h h.device.selected).drive.isLoaded = true from hloaded)
  obtain ⟨_, htrack, hsector, _⟩ := Bay.registers_flush (bay h h.device.selected)
  have hdrive : (obey h .sector).2.device.selectedDrive =
      (bay h h.device.selected).flush.drive.advanced := by
    have hself : bay (obey h .sector).2 h.device.selected =
        (bay h h.device.selected).nextSector.2 :=
      bay_onBay_self _ (fun bay => bay.nextSector.2) h
    exact congrArg Bay.drive (hself.trans (congrArg Prod.snd hnext))
  have hcoming : (bay h h.device.selected).flush.drive.coming = h.device.selectedDrive.coming := by
    unfold Drive.coming
    rw [hsector]
    rfl
  have hbyte := congrArg Prod.fst hnext
  refine ⟨congrArg Reply.byte hbyte, ?_⟩
  rw [hdrive, ← hcoming]
  refine ⟨(Bay.isLoaded_flush _).trans hloaded, htrack, rfl, ?_, rfl, rfl, Bay.dirty_flush _⟩
  unfold Drive.advanced
  rw [htrack]
  rfl

/-- The next look at the position register reports a sector. -/
def Reports (h : Hosted (Controller M R) W) (s : Nat) : Prop :=
  (obey h .sector).1 = .byte (Position.encode (UInt8.ofNat s) true)

instance (h : Hosted (Controller M R) W) (s : Nat) : Decidable (Reports h s) :=
  inferInstanceAs (Decidable (_ = _))

/-- The sector that is reported is the one that comes. -/
theorem coming_of_reports (hloaded : h.device.selectedDrive.isLoaded = true) {s : Nat}
    (hs : s < 32) (hreports : Reports h s) : h.device.selectedDrive.coming = s := by
  obtain ⟨hregister, _⟩ := obey_sector hloaded
  rw [hreports] at hregister
  exact (Position.encode_inj hs h.device.selectedDrive.coming_lt (Reply.byte.inj hregister)).symm

/-- Letting sectors come keeps the drive selected, loaded and on its track, and counts them. -/
theorem coming_after_sectors (hloaded : h.device.selectedDrive.isLoaded = true) (count : Nat) :
    let later := afterCommands h (List.replicate count .sector)
    later.device.selected = h.device.selected ∧ later.device.selectedDrive.isLoaded = true ∧
      later.device.selectedDrive.track = h.device.selectedDrive.track ∧
      later.device.selectedDrive.coming = (h.device.selectedDrive.coming + count) % 32 := by
  induction count generalizing h with
  | zero => exact ⟨rfl, hloaded, rfl, (Nat.mod_eq_of_lt h.device.selectedDrive.coming_lt).symm⟩
  | succ count ih =>
    obtain ⟨_, hpositioned⟩ := obey_sector hloaded
    obtain ⟨hselected, hstill, htrack, hcoming⟩ := ih hpositioned.loaded
    have hlt := h.device.selectedDrive.coming_lt
    have hone : (obey h .sector).2.device.selectedDrive.coming =
        (h.device.selectedDrive.coming + 1) % 32 := by
      have hround : (obey h .sector).2.device.selectedDrive.coming =
          if 32 ≤ (obey h .sector).2.device.selectedDrive.sector then 0
          else (obey h .sector).2.device.selectedDrive.sector := rfl
      rw [hround, hpositioned.sector_eq]
      split <;> omega
    refine ⟨hselected, hstill, htrack.trans hpositioned.track_eq, hcoming.trans ?_⟩
    rw [hone]
    omega

/-- Every sector of the track comes within one turn. -/
theorem sector_comes (hloaded : h.device.selectedDrive.isLoaded = true) {s : Nat} (hs : s < 32) :
    ∃ count < 32, Reports (afterCommands h (List.replicate count .sector)) s := by
  have hlt := h.device.selectedDrive.coming_lt
  refine ⟨(s + 32 - h.device.selectedDrive.coming) % 32, Nat.mod_lt _ (by decide), ?_⟩
  obtain ⟨_, hstill, _, hcoming⟩ :=
    coming_after_sectors hloaded ((s + 32 - h.device.selectedDrive.coming) % 32)
  rw [Reports, (obey_sector hstill).1, hcoming]
  congr 3
  omega

/-! ## Control bytes -/

/-- A control byte with neither step bit moves no head. -/
theorem obey_function_of_still (hloaded : h.device.selectedDrive.isLoaded = true) {byte : UInt8}
    (hin : (Control.ofByte byte).stepIn = false) (hout : (Control.ofByte byte).stepOut = false) :
    (obey h (.function byte)).2 = onBay h.device.selected
      (Bay.update (Drive.move (.obey (Control.ofByte byte)))) h := by
  refine onBay_congr (fun bay => bay.function (Control.ofByte byte)) _ ?_
  have hloaded : (bay h h.device.selected).drive.isLoaded = true := hloaded
  have hfunction := Bay.function_eq (Control.ofByte byte) hloaded
  rw [hin, hout] at hfunction
  exact hfunction

/-- The track after the step bits of a control byte. -/
def trackAfter (control : Control) (track : Nat) : Nat :=
  let inner := if control.stepIn then min (track + 1) 76 else track
  if control.stepOut then inner - 1 else inner

/-- A control byte with neither step bit leaves the track. -/
theorem trackAfter_of_still {control : Control} (hstill : control.steps = false) (track : Nat) :
    trackAfter control track = track := by
  obtain ⟨hin, hout⟩ := Bool.or_eq_false_iff.mp hstill
  unfold trackAfter
  rw [hin, hout]
  rfl

/-- A control byte takes the head to the start of the track its step bits say, and without these it
leaves the head where it is. -/
theorem head_function {bay : Bay M R W} (hloaded : bay.drive.isLoaded = true)
    (control : Control) :
    (bay.function control).drive.head =
      if control.steps then .atTrack (trackAfter control bay.drive.track)
      else bay.drive.head := by
  have hcommanded (bay : Bay M R W) :
      (bay.update (Drive.commanded control)).drive.head = bay.drive.head := rfl
  have hinner : bay.stepIn.drive.track = min (bay.drive.track + 1) 76 :=
    congrArg Head.track bay.head_stepIn
  rw [Bay.function_eq control hloaded, hcommanded]
  unfold Control.steps trackAfter
  cases control.stepIn <;> cases control.stepOut
  · rfl
  · exact bay.head_stepOut
  · exact bay.head_stepIn
  · simp only [if_true, Bool.or_true, Bay.head_stepOut, hinner]

/-- A control byte takes the head of the selected drive where its step bits say. -/
theorem obey_function (hloaded : h.device.selectedDrive.isLoaded = true) (byte : UInt8) :
    (obey h (.function byte)).2.device.selected = h.device.selected ∧
      (obey h (.function byte)).2.device.selectedDrive.isLoaded = true ∧
      (obey h (.function byte)).2.device.selectedDrive.track =
        trackAfter (Control.ofByte byte) h.device.selectedDrive.track := by
  have hself : bay (obey h (.function byte)).2 h.device.selected =
      (bay h h.device.selected).function (Control.ofByte byte) :=
    bay_onBay_self _ (fun bay => bay.function (Control.ofByte byte)) h
  have hdrive : (obey h (.function byte)).2.device.selectedDrive =
      ((bay h h.device.selected).function (Control.ofByte byte)).drive := congrArg Bay.drive hself
  refine ⟨rfl, ?_, ?_⟩
  · rw [hdrive, Bay.function_follow, Bay.isLoaded_follow]
    exact hloaded
  · have hbay : (bay h h.device.selected).drive.isLoaded = true := hloaded
    have hhead := congrArg Head.track (head_function hbay (Control.ofByte byte))
    rw [hdrive]
    refine hhead.trans ?_
    split
    · rfl
    · next hstill => exact (trackAfter_of_still (Bool.eq_false_iff.mpr hstill) _).symm

/-- Control bytes keep the drive selected and loaded, and its track is that of all their steps. -/
theorem afterCommands_functions (hloaded : h.device.selectedDrive.isLoaded = true)
    (controls : List UInt8) :
    let later := afterCommands h (controls.map .function)
    later.device.selected = h.device.selected ∧ later.device.selectedDrive.isLoaded = true ∧
      later.device.selectedDrive.track =
        controls.foldl (fun track byte => trackAfter (Control.ofByte byte) track)
          h.device.selectedDrive.track := by
  induction controls generalizing h with
  | nil => exact ⟨rfl, hloaded, rfl⟩
  | cons byte controls ih =>
    obtain ⟨hselected, hstill, htrack⟩ := obey_function hloaded byte
    obtain ⟨hselected', hstill', htrack'⟩ := ih hstill
    refine ⟨hselected'.trans hselected, hstill', htrack'.trans ?_⟩
    rw [htrack]
    rfl

/-- Steps out to the first track and in again reach any track. -/
theorem foldl_trackAfter {track target : Nat} (htrack : track ≤ 76) (htarget : target ≤ 76) :
    (List.replicate 76 (2 : UInt8) ++ List.replicate target 1).foldl
      (fun track byte => trackAfter (Control.ofByte byte) track) track = target := by
  have hout : ∀ count track, (List.replicate count (2 : UInt8)).foldl
      (fun track byte => trackAfter (Control.ofByte byte) track) track = track - count := by
    intro count
    induction count with
    | zero => exact fun _ => rfl
    | succ count ih =>
      intro track
      rw [List.replicate_succ, List.foldl_cons, ih]
      have hone : trackAfter (Control.ofByte 2) track = track - 1 := rfl
      omega
  have hin : ∀ count, count ≤ 76 → (List.replicate count (1 : UInt8)).foldl
      (fun track byte => trackAfter (Control.ofByte byte) track) 0 = count := by
    intro count
    induction count with
    | zero => exact fun _ => rfl
    | succ count ih =>
      intro hcount
      rw [List.replicate_succ', List.foldl_append, ih (by omega)]
      exact Nat.min_eq_left hcount
  rw [List.foldl_append, hout, Nat.sub_eq_zero_of_le htrack, hin target htarget]

/-- Any loaded drive can be selected and brought to any track. -/
theorem track_comes (hsound : Sound h) {n : Fin driveCount}
    (hloaded : (bay h n).drive.isLoaded = true) {track : Nat} (htrack : track ≤ 76) :
    ∃ (select : UInt8) (controls : List UInt8),
      let near := afterCommands h (.select select :: controls.map .function)
      near.device.selected = n ∧ near.device.selectedDrive.track = track := by
  obtain ⟨controls, hcontrols⟩ : ∃ controls : List UInt8, ∀ start ≤ 76, controls.foldl
      (fun track byte => trackAfter (Control.ofByte byte) track) start = track :=
    ⟨_, fun start hstart => foldl_trackAfter hstart htrack⟩
  refine ⟨UInt8.ofNat n, controls, ?_⟩
  have hselect : (obey h (.select (UInt8.ofNat n))).2.device.selected = n := by
    have hall : ∀ n : Fin driveCount, (UInt8.ofNat n).toNat % 16 = n.val := by decide
    change (if hlt : (UInt8.ofNat n).toNat % 16 < driveCount then
      (⟨(UInt8.ofNat n).toNat % 16, hlt⟩ : Fin driveCount) else 0) = n
    simp only [hall, n.isLt, dif_pos]
  have hdrive : (obey h (.select (UInt8.ofNat n))).2.device.selectedDrive = (bay h n).drive :=
    congrArg (fun n => (bay h n).drive) hselect
  obtain ⟨hselected, _, htracks⟩ := afterCommands_functions (hdrive ▸ hloaded) controls
  refine ⟨hselected.trans hselect, htracks.trans ?_⟩
  rw [hdrive]
  exact hcontrols _ (hsound n).track_le

end Controller

end HardSector
