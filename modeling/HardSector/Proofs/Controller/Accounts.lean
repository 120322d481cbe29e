import HardSector.Proofs.Controller.Recorded
import HardSector.Proofs.Controller.Sound

/-!
# Calls made and calls owed

What a drive owes its medium is one call while its buffer is dirty and none else. Every
motion but the taking of a byte leaves the calls made and the calls owed together as they
were, and a drive that still owes a call has not moved: an account that holds over every
command that writes no byte, and over every change of media.
-/

namespace HardSector.Controller

variable {M R W : Type} {h h' h'' : Recording M R W}

/-- The media are in the drives that their labels tell. -/
def Homed (h : Recording M R W) : Prop :=
  ∀ n label, (bay h n).drive.label? = some label → label.drive = n.val

/-- Between two states the calls that were made and are still owed are those that were owed, and a
drive that owes a call has stayed where it was. -/
structure Accounts (h h' : Recording M R W) : Prop where
  recorded : ∃ calls, h'.host.calls = h.host.calls ++ calls ∧ ∀ n : Fin driveCount,
    calls.filter (MediumCall.storesTo n) ++ (bay h' n).drive.owed = (bay h n).drive.owed
  still : ∀ n, (bay h' n).drive.owed = [] ∨
    (bay h' n).drive.whereabouts = (bay h n).drive.whereabouts

namespace Accounts

/-- Nothing happens between a state and itself. -/
theorem refl (h : Recording M R W) : Accounts h h :=
  ⟨⟨[], by simp⟩, fun _ => .inr rfl⟩

/-- A drive that owed nothing owes nothing. -/
theorem owed_eq_nil (ha : Accounts h h') {n : Fin driveCount} (howed : (bay h n).drive.owed = []) :
    (bay h' n).drive.owed = [] := by
  obtain ⟨calls, _, hstores⟩ := ha.recorded
  have hnone := hstores n
  rw [howed] at hnone
  exact (List.append_eq_nil_iff.mp hnone).2

/-- Accounts of one stretch and the next make an account of both. -/
theorem trans (ha : Accounts h h') (ha' : Accounts h' h'') : Accounts h h'' := by
  obtain ⟨calls, hcalls, hstores⟩ := ha.recorded
  obtain ⟨calls', hcalls', hstores'⟩ := ha'.recorded
  refine ⟨⟨calls ++ calls', ?_, fun n => ?_⟩, fun n => ?_⟩
  · rw [hcalls', hcalls, List.append_assoc]
  · rw [List.filter_append, List.append_assoc, hstores', hstores]
  · rcases ha'.still n with howed | hstill'
    · exact .inl howed
    · rcases ha.still n with howed | hstill
      · exact .inl (ha'.owed_eq_nil howed)
      · exact .inr (hstill'.trans hstill)

/-- An account of one bay is an account of the controller. -/
theorem onBay {n : Fin driveCount}
    {act : Bay (Labelled M) R (Recorded W) → Bay (Labelled M) R (Recorded W)}
    (calls : List MediumCall) (hcalls : (act (bay h n)).calls = (bay h n).calls ++ calls)
    (howed : calls.filter (MediumCall.storesTo n) ++ (act (bay h n)).drive.owed =
      (bay h n).drive.owed)
    (hothers : ∀ m : Fin driveCount, m ≠ n → calls.filter (MediumCall.storesTo m) = [])
    (hstill : (act (bay h n)).drive.owed = [] ∨
      (act (bay h n)).drive.whereabouts = (bay h n).drive.whereabouts) :
    Accounts h (onBay n act h) := by
  refine ⟨⟨calls, hcalls, fun m => ?_⟩, fun m => ?_⟩
  · rw [drive_onBay]
    split
    · next heq =>
      rw [heq]
      exact howed
    · next hne => rw [hothers m hne, List.nil_append]
  · rw [drive_onBay]
    split
    · next heq =>
      rw [heq]
      exact hstill
    · exact .inr rfl

/-- A drive that is given another place has nothing fetched there, let alone pending. -/
theorem of_displaced {n : Fin driveCount} {move : Drive.Move}
    (hsound : ((bay h n).drive.move move).Sound)
    (hdirty : ((bay h n).drive.move move).dirty = (bay h n).drive.dirty)
    (hfetched : ((bay h n).drive.move move).fetched = false) :
    Accounts h (Controller.onBay n (Bay.update (Drive.move move)) h) := by
  have hclean : ((bay h n).drive.move move).dirty = false := by
    rw [Bool.eq_false_iff]
    intro hpending
    have hcontra := hsound.fetched_of_dirty hpending
    exact absurd (hfetched.symm.trans hcontra) (by decide)
  have howed : ((bay h n).drive.move move).owed = [] := Drive.owed_of_clean hclean
  refine .onBay [] (List.append_nil _).symm ?_ (fun _ _ => rfl) (.inl howed)
  rw [Drive.owed_of_clean (hdirty.symm.trans hclean)]
  exact howed

end Accounts

/-- What leaves the label in a bay as it is leaves the media in their drives. -/
theorem Homed.onBay (hh : Homed h) {n : Fin driveCount}
    {act : Bay (Labelled M) R (Recorded W) → Bay (Labelled M) R (Recorded W)}
    (hact : ∀ label, (act (bay h n)).drive.label? = some label → label.drive = n.val) :
    Homed (onBay n act h) := by
  intro m label
  rw [drive_onBay]
  split
  · next heq =>
    rw [heq]
    exact hact label
  · exact hh m label

/-- What a drive owes is a store to its own medium. -/
theorem Homed.storesTo_owed (hh : Homed h) (n m : Fin driveCount) :
    (bay h n).drive.owed.filter (MediumCall.storesTo m) =
      if m = n then (bay h n).drive.owed else [] := by
  unfold Drive.owed
  split
  · cases hlabel : (bay h n).drive.label? with
    | none => simp
    | some label =>
      have hdrive := hh n label hlabel
      by_cases heq : m = n
      · subst heq
        simp [MediumCall.storesTo, hdrive]
      · have hne : n.val ≠ m.val := fun hval => heq (Fin.ext hval.symm)
        simp [MediumCall.storesTo, hdrive, heq, hne]
  · simp

/-- A recorded controller whose drives are sound and whose media are in their drives. -/
structure Kept (h : Recording M R W) : Prop where
  sound : Sound h
  homed : Homed h

namespace Kept

/-- There are no media in a fresh controller. -/
theorem start (shared : R) (base : UInt16) (host : W) :
    Kept (fresh shared base ⟨host, []⟩ : Recording M R W) := by
  refine ⟨sound_fresh shared base _, fun n label hlabel => ?_⟩
  simp [bay, fresh, ofShared, Drive.label?] at hlabel

/-- A move keeps the media in their drives. -/
theorem moved (hk : Kept h) {n : Fin driveCount} {move : Drive.Move}
    (hsound : ((bay h n).drive.move move).Sound) :
    Kept (onBay n (Bay.update (Drive.move move)) h) := by
  refine ⟨hk.sound.onBay hsound, hk.homed.onBay fun label hsome => ?_⟩
  rw [Bay.drive_update, Drive.label?_move] at hsome
  exact hk.homed n label hsome

variable [Medium M R W]

/-- A flush makes the call that is owed. -/
theorem flush (hk : Kept h) (n : Fin driveCount) :
    Kept (onBay n Bay.flush h) ∧ Accounts h (onBay n Bay.flush h) := by
  obtain ⟨_, hlabel, hcalls⟩ := (bay h n).flush_recorded
  have howed : (bay h n).flush.drive.owed = [] := Drive.owed_of_clean (bay h n).dirty_flush
  refine ⟨⟨hk.sound.onBay (Bay.sound_flush (hk.sound n)), hk.homed.onBay fun label hsome => ?_⟩,
    .onBay _ hcalls ?_ (fun m hne => ?_) (.inl howed)⟩
  · exact hk.homed n label (hlabel ▸ hsome)
  · rw [hk.homed.storesTo_owed, if_pos rfl, howed, List.append_nil]
  · rw [hk.homed.storesTo_owed, if_neg hne]

/-- Making the buffer ready stores nothing, and a dirty buffer is ready already. -/
theorem ready (hk : Kept h) {n : Fin driveCount} (hsound : (bay h n).ready.drive.Sound) :
    Kept (onBay n Bay.ready h) ∧ Accounts h (onBay n Bay.ready h) := by
  obtain ⟨_, hlabel, calls, hcalls, hstores⟩ := (bay h n).ready_recorded
  obtain ⟨hdirty, hoffset⟩ := (bay h n).pending_ready
  refine ⟨⟨hk.sound.onBay hsound, hk.homed.onBay fun label hsome => ?_⟩,
    .onBay _ hcalls ?_ (fun m _ => hstores m) (.inr ?_)⟩
  · exact hk.homed n label (hlabel ▸ hsome)
  · rw [hstores, List.nil_append]
    cases hpending : (bay h n).drive.dirty with
    | false =>
      rw [Drive.owed_of_clean hpending]
      exact Drive.owed_of_clean (hdirty.trans hpending)
    | true => rw [Bay.ready_of_fetched ((hk.sound n).fetched_of_dirty hpending)]
  · rw [Drive.whereabouts, Drive.whereabouts, hlabel, hoffset]

/-- A motion that takes no byte keeps the accounts. -/
theorem make (hk : Kept h) {n : Fin driveCount} {motion : Motion} (htakes : motion.takes = false)
    (hsound : ((bay h n).make motion).drive.Sound) :
    Kept (onBay n (fun bay => bay.make motion) h) ∧
      Accounts h (onBay n (fun bay => bay.make motion) h) := by
  cases motion with
  | flush => exact hk.flush n
  | ready => exact hk.ready hsound
  | move move =>
    have hstay (howed : ((bay h n).drive.move move).owed = (bay h n).drive.owed)
        (hwhere : ((bay h n).drive.move move).whereabouts = (bay h n).drive.whereabouts) :
        Accounts h (onBay n (Bay.update (Drive.move move)) h) :=
      .onBay [] (List.append_nil _).symm howed (fun _ _ => rfl) (.inr hwhere)
    refine ⟨hk.moved hsound, ?_⟩
    cases move with
    | stepIn => exact .of_displaced hsound rfl rfl
    | stepOut => exact .of_displaced hsound rfl rfl
    | advance => exact .of_displaced hsound rfl rfl
    | take byte => cases htakes
    | obey control => exact hstay rfl rfl
    | complete => exact hstay rfl rfl
    | pass => exact hstay rfl rfl

/-- Motions that take no byte keep the accounts. -/
theorem follow (hk : Kept h) {n : Fin driveCount} {motions : List Motion}
    (halong : (bay h n).SoundAlong motions) (htakes : ∀ motion ∈ motions, motion.takes = false) :
    Kept (onBay n (fun bay => bay.follow motions) h) ∧
      Accounts h (onBay n (fun bay => bay.follow motions) h) := by
  refine follow_induct (P := fun h' => Kept h' ∧ Accounts h h')
    (fun h' motion hmem hkept hsound => ?_) halong ⟨hk, .refl h⟩
  obtain ⟨hk', ha⟩ := hkept
  obtain ⟨hmade, ha'⟩ := hk'.make (htakes motion hmem) hsound
  exact ⟨hmade, ha.trans ha'⟩

/-- Flushing all drives keeps the accounts. -/
theorem flushAll (hk : Kept h) : Kept (flushAll h) ∧ Accounts h (flushAll h) := by
  refine flushAll_induct (P := fun h' => Kept h' ∧ Accounts h h') (fun n h' hkept => ?_)
    ⟨hk, .refl h⟩
  obtain ⟨hk', ha⟩ := hkept
  obtain ⟨hflushed, ha'⟩ := hk'.flush n
  exact ⟨hflushed, ha.trans ha'⟩

/-- A command that writes no byte keeps the accounts. -/
theorem obey (hk : Kept h) {command : Command} (hread : ∀ byte, command ≠ .write byte) :
    Kept (obey h command).2 ∧ Accounts h (obey h command).2 := by
  have halong := soundAlong_motions (hk.sound h.device.selected) command
  obtain ⟨_, hsector, hbyte⟩ := (bay h h.device.selected).drive.takes_motions {}
  rw [obey_eq]
  cases command with
  | select byte =>
    exact ⟨⟨hk.sound, hk.homed⟩, ⟨[], (List.append_nil _).symm, fun _ => rfl⟩, fun _ => .inr rfl⟩
  | status => exact ⟨hk, .refl h⟩
  | flush => exact hk.flushAll
  | function byte => exact hk.follow halong (Drive.takes_motions _ _).1
  | sector => exact hk.follow halong hsector
  | read => exact hk.follow halong hbyte
  | write byte => exact absurd rfl (hread byte)

/-- Taking a medium out of a drive keeps the accounts. -/
theorem eject (hk : Kept h) (n : Fin driveCount) :
    Kept (onBay n (fun bay => bay.eject.2) h) ∧
      Accounts h (onBay n (fun bay => bay.eject.2) h) := by
  have heject : onBay n (fun bay => bay.eject.2) h = onBay n Bay.vacate (onBay n Bay.flush h) := by
    rw [← onBay_comp]
    simp only [Bay.eject_eq]
  obtain ⟨hflushed, ha⟩ := hk.flush n
  obtain ⟨_, calls, hcalls, hstores⟩ := (bay (onBay n Bay.flush h) n).vacate_recorded
  have hclean : (bay (onBay n Bay.flush h) n).drive.owed = [] := by
    rw [bay_onBay_self]
    exact Drive.owed_of_clean (bay h n).dirty_flush
  rw [heject]
  refine ⟨⟨hflushed.sound.onBay (Drive.sound_empty _), hflushed.homed.onBay nofun⟩,
    ha.trans (.onBay _ hcalls ?_ (fun m _ => hstores m) (.inl rfl))⟩
  rw [hstores, hclean]
  rfl

/-- Putting a medium with the label of its drive into it keeps the accounts. -/
theorem load (hk : Kept h) (n : Fin driveCount) {labelled : Labelled M}
    (hlabel : labelled.label.drive = n.val) :
    Kept (onBay n (fun bay => bay.load labelled) h) ∧
      Accounts h (onBay n (fun bay => bay.load labelled) h) := by
  have hload : onBay n (fun bay => bay.load labelled) h =
      onBay n (Bay.update (Drive.holding labelled)) (onBay n (fun bay => bay.eject.2) h) := by
    rw [← onBay_comp]
    simp only [Bay.eject_eq, Bay.load_eq]
  obtain ⟨hejected, ha⟩ := hk.eject n
  have hempty : (bay (onBay n (fun bay => bay.eject.2) h) n).drive.owed = [] := by
    rw [bay_onBay_self, Bay.drive_eject]
    rfl
  rw [hload]
  refine ⟨⟨hejected.sound.onBay (Drive.sound_holding _ _),
      hejected.homed.onBay fun label hsome => ?_⟩,
    ha.trans (.onBay [] (List.append_nil _).symm ?_ (fun _ _ => rfl) (.inl rfl))⟩
  · obtain rfl : labelled.label = label := Option.some.inj hsome
    exact hlabel
  · rw [hempty]
    rfl

/-- An operation that writes no byte keeps the accounts. -/
theorem perform (hk : Kept h) {op : Operation M} (turn : Nat)
    (hread : ∀ byte, op ≠ .command (.write byte)) :
    Kept (perform h (op.labelled turn)).2 ∧ Accounts h (perform h (op.labelled turn)).2 := by
  cases op with
  | load drive medium =>
    rw [Operation.labelled, perform_load]
    split
    · next hlt => exact hk.load ⟨drive, hlt⟩ rfl
    · exact ⟨hk, .refl h⟩
  | eject drive =>
    rw [Operation.labelled, perform_eject]
    split
    · next hlt => exact hk.eject ⟨drive, hlt⟩
    · exact ⟨hk, .refl h⟩
  | command command =>
    exact hk.obey fun byte hwrite => hread byte (congrArg Operation.command hwrite)

/-- A byte that is written is taken by the selected drive if that is loaded, and the accounts are
kept from then on, with the buffers as they are. -/
theorem write (hk : Kept h) (byte : UInt8) : ∃ taken : Recording M R W,
    taken.host.calls = h.host.calls ∧
    (∀ n, (bay taken n).drive =
      if n = h.device.selected ∧ (bay h n).drive.isLoaded then (bay h n).drive.written byte
      else (bay h n).drive) ∧
    Kept (Controller.obey h (.write byte)).2 ∧
    Accounts taken (Controller.obey h (.write byte)).2 ∧
    ∀ n, (bay (Controller.obey h (.write byte)).2 n).drive.buffer =
      (bay taken n).drive.buffer := by
  have halong := Bay.soundAlong_write (hk.sound h.device.selected) byte
  have hwritten : (Controller.obey h (.write byte)).2 = onBay h.device.selected
      (fun held => held.follow ((bay h h.device.selected).drive.writeMotions byte)) h :=
    obey_eq h (.write byte)
  rw [hwritten]
  unfold Drive.writeMotions at halong ⊢
  cases hloaded : (bay h h.device.selected).drive.isLoaded with
  | false =>
    rw [if_neg (by decide), onBay_of_eq (Bay.follow_nil _)]
    refine ⟨h, rfl, fun n => ?_, hk, .refl h, fun _ => rfl⟩
    rw [if_neg]
    rintro ⟨rfl, hn⟩
    exact absurd (hloaded.symm.trans hn) (by decide)
  | true =>
    rw [hloaded, if_pos rfl] at halong
    rw [if_pos rfl, onBay_follow_cons]
    have htaken : Kept (onBay h.device.selected (fun held => held.make (.move (.take byte))) h) :=
      hk.moved halong.1
    have hrest : (bay (onBay h.device.selected (fun held => held.make (.move (.take byte))) h)
        h.device.selected).SoundAlong
          (if (bay h h.device.selected).drive.writeCount + 1 = sectorSize then
            [.flush, .move .complete] else []) := by
      rw [bay_onBay_self]
      exact halong.2
    obtain ⟨hkept, ha⟩ := htaken.follow hrest (by split <;> simp [Motion.takes])
    refine ⟨onBay h.device.selected (fun held => held.make (.move (.take byte))) h, rfl,
      fun n => ?_, hkept, ha, fun n => ?_⟩
    · rw [drive_onBay]
      by_cases hn : n = h.device.selected
      · subst hn
        rw [if_pos rfl, if_pos ⟨rfl, hloaded⟩]
        rfl
      · rw [if_neg hn, if_neg fun hboth => hn hboth.1]
    · rw [drive_onBay]
      split
      · next heq =>
        rw [heq]
        split
        · exact Bay.buffer_flush _
        · rfl
      · rfl

/-- A run keeps the drives sound and the media in their drives. -/
theorem after (hk : Kept h) (turn : Nat) (ops : List (Operation M)) :
    Kept (after h (labelledFrom turn ops)) := by
  induction ops generalizing h turn with
  | nil => exact hk
  | cons op ops ih =>
    refine ih ?_ (turn + 1)
    by_cases hwrite : ∃ byte, op = .command (.write byte)
    · obtain ⟨byte, rfl⟩ := hwrite
      obtain ⟨_, _, _, hkept, _⟩ := hk.write byte
      exact hkept
    · exact (hk.perform turn (not_exists.mp hwrite)).1

/-- A command only adds to the record. -/
theorem grows (hk : Kept h) (command : Command) :
    Kept (Controller.obey h command).2 ∧
      ∃ calls, (Controller.obey h command).2.host.calls = h.host.calls ++ calls := by
  by_cases hwrite : ∃ byte, command = .write byte
  · obtain ⟨byte, rfl⟩ := hwrite
    obtain ⟨taken, htaken, _, hkept, ha, _⟩ := hk.write byte
    obtain ⟨calls, hcalls, _⟩ := ha.recorded
    exact ⟨hkept, calls, hcalls.trans (by rw [htaken])⟩
  · obtain ⟨hkept, ha⟩ := hk.obey (not_exists.mp hwrite)
    obtain ⟨calls, hcalls, _⟩ := ha.recorded
    exact ⟨hkept, calls, hcalls⟩

/-- Commands only add to the record. -/
theorem grows_after (hk : Kept h) (commands : List Command) :
    Kept (afterCommands h commands) ∧
      ∃ calls, (afterCommands h commands).host.calls = h.host.calls ++ calls := by
  induction commands generalizing h with
  | nil => exact ⟨hk, [], (List.append_nil _).symm⟩
  | cons command commands ih =>
    obtain ⟨hobeyed, calls, hcalls⟩ := hk.grows command
    obtain ⟨hkept, calls', hcalls'⟩ := ih hobeyed
    exact ⟨hkept, calls ++ calls', by rw [← List.append_assoc, ← hcalls]; exact hcalls'⟩

end Kept

end HardSector.Controller
