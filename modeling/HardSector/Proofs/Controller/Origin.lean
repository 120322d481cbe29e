import HardSector.Proofs.Controller.Pending
import HardSector.Proofs.Controller.Transfer
import HardSector.Proofs.Medium.CopyOnWrite

/-!
# Where stored bytes come from

Once a sector has come under the head, the guest reads and writes bytes of it, and the
buffer is stored at last. Each stored byte is one that was written at its place, or one
that the sector held, or one that was left in the buffer when the sector came. The last
is possible only if the guest writes before it reads, for then the sector is not fetched.
-/

namespace HardSector

/-- Commands that leave the head of the selected drive over its sector. -/
def Command.stays : Command → Bool
  | .status => true
  | .read => true
  | .write _ => true
  | .function byte => !(Control.ofByte byte).stepIn && !(Control.ofByte byte).stepOut
  | _ => false

/-- Whether the first byte to pass in the course of commands is a written one. -/
def writesFirst : List Command → Bool
  | [] => false
  | .write _ :: _ => true
  | .read :: _ => false
  | _ :: commands => writesFirst commands

/-- The bytes of a sector are all admitted at their places. -/
def Admitted (A : Nat → UInt8 → Prop) (bytes : Sector) : Prop :=
  ∀ i byte, bytes[i]? = some byte → A i byte

/-- The sector in a buffer is its first bytes. -/
theorem Buffer.getElem?_window (buffer : Buffer) (i : Nat) :
    buffer.window[i]? = if i < sectorSize then buffer[i]? else none := by
  by_cases hi : i < sectorSize
  · have hlt : i < bufferSize := Nat.lt_trans hi (by decide)
    rw [if_pos hi, Vector.getElem?_eq_getElem hi, Vector.getElem?_eq_getElem hlt]
    simp only [window, sector, Vector.getElem_mk, Array.getElem_extract, Vector.getElem_toArray,
      Nat.zero_add]
  · rw [if_neg hi, Vector.getElem?_eq_none (Nat.le_of_not_lt hi)]

/-- A fetched sector is what the buffer holds. -/
theorem Buffer.window_ofDelivered (bytes : Sector) :
    (Buffer.ofDelivered bytes.toArray).window = bytes :=
  Buffer.window_eq fun _ hi => getElem?_ofDelivered bytes hi

/-- A byte that comes into a buffer leaves the other bytes admitted. -/
theorem Admitted.set {A : Nat → UInt8 → Prop} {buffer : Buffer} (ha : Admitted A buffer.window)
    {i : Nat} {byte : UInt8} (hbyte : A i byte) :
    Admitted A (Buffer.window (buffer.setIfInBounds i byte)) := by
  intro j other hother
  rw [Buffer.getElem?_window] at hother
  split at hother
  · next hj =>
    rw [Vector.getElem?_setIfInBounds] at hother
    split at hother
    · next heq =>
      subst heq
      split at hother
      · rw [← Option.some.inj hother]
        exact hbyte
      · cases hother
    · refine ha j other ?_
      rw [Buffer.getElem?_window, if_pos hj]
      exact hother
  · cases hother

/-- What a sound drive owes is a store of the sector in its buffer to its place. -/
theorem Drive.Sound.mem_owed {M : Type} {drive : Drive (Labelled M)} (hs : drive.Sound)
    {call : MediumCall} (hcall : call ∈ drive.owed) :
    drive.dirty = true ∧ ∃ label,
      call = .store label (drive.place.val * sectorSize) drive.buffer.window.toArray := by
  rw [← hs.offset_eq]
  unfold Drive.owed at hcall
  split at hcall
  · next hdirty =>
    obtain ⟨label, _, rfl⟩ := List.mem_map.mp hcall
    exact ⟨hdirty, label, rfl⟩
  · cases hcall

namespace Controller

variable {M R W : Type} [Medium M R W]

/-- Commands that leave the head where it is leave the drive selected. -/
theorem selected_obey {h : Hosted (Controller M R) W} {command : Command}
    (hstays : command.stays = true) :
    (obey h command).2.device.selected = h.device.selected := by
  cases command <;> first | rfl | cases hstays

/-- A byte is written at a place of the buffer in the course of commands. -/
def WroteAt (h : Hosted (Controller M R) W) (commands : List Command) (i : Nat) (byte : UInt8) :
    Prop :=
  ∃ before later, commands = before ++ .write byte :: later ∧
    min (afterCommands h before).device.selectedDrive.pointer (bufferSize - 1) = i

/-- The situation in which a command of a transfer is obeyed: the same drive is selected and loaded,
and what the command does belongs to the transfer. -/
structure Amid (n : Fin driveCount) (start : Recording M R W) (commands : List Command)
    (h : Recording M R W) (command : Command) : Prop where
  stays : command.stays = true
  kept : Kept h
  selected : h.device.selected = n
  loaded : (bay h n).drive.isLoaded = true
  wrote : ∀ byte, command = .write byte →
    WroteAt start commands (min (bay h n).drive.pointer (bufferSize - 1)) byte
  unstored : storesBetween n start (afterCommands start commands) = [] →
    storesBetween n h (obey h command).2 = []

/-- What every command of a transfer keeps, with the commands that are still to come, the transfer
keeps. -/
theorem transfer_induct {n : Fin driveCount} {start : Recording M R W} {commands : List Command}
    {P : Recording M R W → List Command → Prop}
    (hstays : ∀ command ∈ commands, command.stays = true) (hk : Kept start)
    (hselected : start.device.selected = n) (hloaded : (bay start n).drive.isLoaded = true)
    (hstep : ∀ h command later, Amid n start commands h command → P h (command :: later) →
      P (obey h command).2 later)
    (hP : P start commands) : P (afterCommands start commands) [] := by
  suffices hrest : ∀ later before, commands = before ++ later →
      (afterCommands start before).device.selected = n →
      (bay (afterCommands start before) n).drive.isLoaded = true →
      P (afterCommands start before) later → P (afterCommands start commands) [] from
    hrest commands [] rfl hselected hloaded hP
  intro later
  induction later with
  | nil =>
    intro before hcommands _ _ hP
    rwa [hcommands, List.append_nil]
  | cons command later ih =>
    intro before hcommands hselected hloaded hP
    obtain ⟨hkept, calls, hcalls⟩ := hk.grows_after before
    have hstay : command.stays = true := hstays command (by simp [hcommands])
    have hnext : afterCommands start (before ++ [command]) =
        (obey (afterCommands start before) command).2 := Run.final_append ..
    have hamid : Amid n start commands (afterCommands start before) command := by
      refine ⟨hstay, hkept, hselected, hloaded, fun byte hwrite => ?_, fun hnone => ?_⟩
      · subst hwrite
        refine ⟨before, later, hcommands, ?_⟩
        rw [← hselected]
        rfl
      · obtain ⟨hobeyed, calls', hcalls'⟩ := hkept.grows command
        obtain ⟨_, calls'', hcalls''⟩ := hobeyed.grows_after later
        have hsplit : afterCommands start commands =
            afterCommands (obey (afterCommands start before) command).2 later := by
          rw [hcommands]
          exact Run.final_append ..
        have hend : (afterCommands start commands).host.calls =
            start.host.calls ++ (calls ++ (calls' ++ calls'')) := by
          rw [hsplit, hcalls'', hcalls', hcalls, List.append_assoc, List.append_assoc]
        rw [storesBetween_eq hend, List.filter_append, List.filter_append] at hnone
        rw [storesBetween_eq hcalls']
        exact (List.append_eq_nil_iff.mp (List.append_eq_nil_iff.mp hnone).2).1
    have hstepped := hstep _ command later hamid hP
    rw [← hnext] at hstepped
    refine ih (before ++ [command]) (by simpa using hcommands) ?_ ?_ hstepped
    · rw [hnext, selected_obey hstay, hselected]
    · rw [hnext, isLoaded_obey]
      exact hloaded

/-- A recorded controller with a loaded drive at a sector, of which all bytes that are to be seen
there, and all that were stored since a former state, are admitted. -/
structure Admits (S : Sectored M R W) (n : Fin driveCount) (k : Fin diskSectors)
    (A : Nat → UInt8 → Prop) (start h : Recording M R W) : Prop where
  kept : Kept h
  steady : ∃ places, Steady S places (plain h)
  loaded : (bay h n).drive.isLoaded = true
  here : (bay h n).drive.place = k
  shown : ∀ bytes, view S (plain h) n k = some bytes → Admitted A bytes
  recorded : ∃ calls, h.host.calls = start.host.calls ++ calls ∧
    ∀ call ∈ calls.filter (MediumCall.storesTo n), ∃ label, ∃ bytes : Sector,
      call = .store label (k.val * sectorSize) bytes.toArray ∧ Admitted A bytes

namespace Admits

variable {S : Sectored M R W} {n : Fin driveCount} {k : Fin diskSectors} {A : Nat → UInt8 → Prop}
  {start h : Recording M R W}

/-- A flush stores what is in the buffer. -/
theorem flush (ha : Admits S n k A start h)
    (hbuffer : (bay h n).drive.dirty = true → Admitted A (bay h n).drive.buffer.window) :
    Admits S n k A start (onBay n Bay.flush h) := by
  obtain ⟨places, hs⟩ := ha.steady
  obtain ⟨hplain, hlabel, hcalls⟩ := (bay h n).flush_recorded
  have hflushed : plain (onBay n Bay.flush h) = onBay n Bay.flush (plain h) :=
    plain_onBay _ _ hplain
  obtain ⟨kept, hsteady, _, _, hview⟩ := hs.flush n
  refine ⟨(ha.kept.flush n).1, ⟨_, hflushed ▸ hsteady⟩, ?_, ?_, fun bytes hbytes => ?_, ?_⟩
  · rw [bay_onBay_self, Bay.isLoaded_flush]
    exact ha.loaded
  · rw [bay_onBay_self, Drive.place, Bay.offset_flush]
    exact ha.here
  · rw [hflushed, hview, bay_plain] at hbytes
    split at hbytes
    · next hstored =>
      rw [← Option.some.inj hbytes]
      exact hbuffer hstored.1
    · exact ha.shown bytes hbytes
  · obtain ⟨calls, hbefore, hstored⟩ := ha.recorded
    refine ⟨calls ++ (bay h n).drive.owed, ?_, fun call hcall => ?_⟩
    · rw [← List.append_assoc, ← hbefore]
      exact hcalls
    · rw [List.filter_append] at hcall
      rcases List.mem_append.mp hcall with hcall | hcall
      · exact hstored call hcall
      · obtain ⟨hdirty, label, rfl⟩ := (ha.kept.sound n).mem_owed (List.mem_of_mem_filter hcall)
        exact ⟨label, _, by rw [ha.here], hbuffer hdirty⟩

/-- Making the buffer ready fetches the sector as it is to be seen. -/
theorem ready (ha : Admits S n k A start h) :
    Admits S n k A start (onBay n Bay.ready h) ∧
      ((bay h n).drive.fetched = false ∨ Admitted A (bay h n).drive.buffer.window →
        Admitted A (bay (onBay n Bay.ready h) n).drive.buffer.window) := by
  obtain ⟨places, hs⟩ := ha.steady
  obtain ⟨hplain, hlabel, fetches, hcalls, hstores⟩ := (bay h n).ready_recorded
  have hready : plain (onBay n Bay.ready h) = onBay n Bay.ready (plain h) := plain_onBay _ _ hplain
  obtain ⟨hsteady, _, hview, hshell⟩ := hs.ready n
  obtain ⟨_, hoffset⟩ := (bay h n).pending_ready
  refine ⟨⟨?_, ⟨places, hready ▸ hsteady⟩, ?_, ?_, fun bytes hbytes => ?_, ?_⟩, fun hbuffer => ?_⟩
  · exact (ha.kept.ready (Bay.sound_ready (ha.kept.sound n) ha.loaded).1).1
  · rw [bay_onBay_self, Bay.isLoaded_ready]
    exact ha.loaded
  · rw [bay_onBay_self, Drive.place, hoffset]
    exact ha.here
  · rw [hready, hview] at hbytes
    exact ha.shown bytes hbytes
  · obtain ⟨calls, hbefore, hstored⟩ := ha.recorded
    refine ⟨calls ++ fetches, ?_, fun call hcall => ?_⟩
    · rw [← List.append_assoc, ← hbefore]
      exact hcalls
    · rw [List.filter_append, hstores, List.append_nil] at hcall
      exact hstored call hcall
  · rw [bay_onBay_self]
    cases hfetched : (bay h n).drive.fetched with
    | true =>
      rw [Bay.ready_of_fetched hfetched]
      exact hbuffer.resolve_left (by simp [hfetched])
    | false =>
      obtain ⟨bytes, hbytes⟩ : ∃ bytes, view S (plain h) n k = some bytes := by
        rw [← Option.isSome_iff_exists, isSome_view, bay_plain]
        exact (bay h n).drive.isLoaded_plain.trans ha.loaded
      have hplace : (bay (plain h) n).drive.place = k := by
        rw [bay_plain]
        exact ha.here
      have hunfetched : (bay (plain h) n).drive.fetched = false := by
        rw [bay_plain]
        exact hfetched
      have hshown := congrArg Drive.buffer (hshell bytes (hplace ▸ hbytes) hunfetched)
      rw [bay_onBay_self, bay_plain, ← hplain] at hshown
      have hwindow : (bay h n).ready.drive.buffer = .ofDelivered bytes.toArray := hshown
      rw [hwindow, Buffer.window_ofDelivered]
      exact ha.shown bytes hbytes

/-- A move that leaves the buffer where it lies. -/
theorem move (ha : Admits S n k A start h) {move : Drive.Move}
    (hsound : ((bay h n).drive.move move).Sound)
    (hoffset : ((bay h n).drive.move move).offset = (bay h n).drive.offset) :
    Admits S n k A start (onBay n (Bay.update (Drive.move move)) h) := by
  obtain ⟨places, hs⟩ := ha.steady
  have hmoved : plain (onBay n (Bay.update (Drive.move move)) h) =
      onBay n (Bay.update (Drive.move move)) (plain h) :=
    plain_onBay _ _ ((bay h n).plain_make (.move move))
  have hsound' : ((bay (plain h) n).drive.move move).Sound := by
    rw [bay_plain]
    change ((bay h n).drive.plain.move move).Sound
    rw [← Drive.plain_move]
    exact hsound.congr (Drive.shell_plain _)
  refine ⟨ha.kept.moved hsound, ⟨places, hmoved ▸ hs.move hsound'⟩, ?_, ?_,
    fun bytes hbytes => ?_, ha.recorded⟩
  · rw [bay_onBay_self, Bay.drive_update, Drive.isLoaded, Drive.medium_move]
    exact ha.loaded
  · rw [bay_onBay_self, Bay.drive_update, Drive.place, hoffset]
    exact ha.here
  · rw [hmoved, view, rack_move] at hbytes
    exact ha.shown bytes hbytes

/-- Reading a byte. -/
theorem read (ha : Admits S n k A start h) (hselected : h.device.selected = n) :
    Admits S n k A start (obey h .read).2 ∧
      ((bay h n).drive.fetched = false ∨ Admitted A (bay h n).drive.buffer.window →
        Admitted A (bay (obey h .read).2 n).drive.buffer.window) := by
  subst hselected
  have hobeyed : (obey h .read).2 = onBay h.device.selected
      (fun held => held.follow (bay h h.device.selected).drive.readMotions) h := obey_eq h .read
  have halong := Bay.soundAlong_read (ha.kept.sound h.device.selected)
  unfold Drive.readMotions at hobeyed halong
  rw [if_pos ha.loaded] at hobeyed halong
  rw [onBay_follow_cons] at hobeyed
  obtain ⟨hready, hbuffer⟩ := ha.ready
  rw [hobeyed]
  split
  · rw [onBay_of_eq rfl]
    exact ⟨hready, hbuffer⟩
  · next hinside =>
    rw [if_neg hinside] at halong
    have hsound : ((bay (onBay h.device.selected Bay.ready h) h.device.selected).drive.move
        .pass).Sound := by
      rw [bay_onBay_self]
      exact halong.2.1
    refine ⟨hready.move hsound rfl, fun hbefore => ?_⟩
    have hwindow := hbuffer hbefore
    rw [bay_onBay_self]
    exact hwindow

/-- Writing a byte. -/
theorem write (ha : Admits S n k A start h) (hselected : h.device.selected = n) {byte : UInt8}
    (hbuffer : Admitted A (bay h n).drive.buffer.window)
    (hbyte : A (min (bay h n).drive.pointer (bufferSize - 1)) byte) :
    Admits S n k A start (obey h (.write byte)).2 ∧
      Admitted A (bay (obey h (.write byte)).2 n).drive.buffer.window := by
  subst hselected
  have hobeyed : (obey h (.write byte)).2 = onBay h.device.selected
      (fun held => held.follow ((bay h h.device.selected).drive.writeMotions byte)) h :=
    obey_eq h (.write byte)
  have halong := Bay.soundAlong_write (ha.kept.sound h.device.selected) byte
  unfold Drive.writeMotions at hobeyed halong
  rw [if_pos ha.loaded] at hobeyed halong
  rw [onBay_follow_cons] at hobeyed
  have hsound : ((bay h h.device.selected).drive.move (.take byte)).Sound := halong.1
  have htaken := ha.move hsound rfl
  have hwindow : Admitted A (bay (onBay h.device.selected
      (Bay.update (Drive.move (.take byte))) h) h.device.selected).drive.buffer.window := by
    rw [bay_onBay_self]
    exact hbuffer.set hbyte
  rw [hobeyed]
  split
  · next hfull =>
    rw [if_pos hfull] at halong
    have hflushed := htaken.flush fun _ => hwindow
    have hcompleted : ((bay (onBay h.device.selected Bay.flush (onBay h.device.selected
        (Bay.update (Drive.move (.take byte))) h)) h.device.selected).drive.move
          .complete).Sound := by
      rw [bay_onBay_self, bay_onBay_self]
      exact halong.2.2.1
    rw [onBay_follow_cons]
    refine ⟨hflushed.move hcompleted rfl, ?_⟩
    rw [bay_onBay_self]
    change Admitted A (bay (onBay h.device.selected Bay.flush _) _).drive.buffer.window
    rw [bay_onBay_self, Bay.buffer_flush]
    exact hwindow
  · rw [onBay_of_eq rfl]
    exact ⟨htaken, hwindow⟩

/-- A control byte that does not step the head. -/
theorem function (ha : Admits S n k A start h) (hselected : h.device.selected = n) {byte : UInt8}
    (hin : (Control.ofByte byte).stepIn = false) (hout : (Control.ofByte byte).stepOut = false) :
    Admits S n k A start (obey h (.function byte)).2 ∧
      (bay (obey h (.function byte)).2 n).drive =
        (bay h n).drive.commanded (Control.ofByte byte) := by
  subst hselected
  rw [obey_function_of_still ha.loaded hin hout, bay_onBay_self]
  exact ⟨ha.move ((ha.kept.sound _).commanded ha.loaded _) rfl, rfl⟩

/-- A command of a transfer keeps all admitted that was, if the buffer is fetched before bytes are
written to it or is admitted as it was. -/
theorem obey (ha : Admits S n k A start h) {commands later : List Command} {command : Command}
    (hamid : Amid n start commands h command)
    (hwrote : ∀ i byte, WroteAt start commands i byte → A i byte)
    (hbuffer : Admitted A (bay h n).drive.buffer.window ∨
      ((bay h n).drive.fetched = false ∧ writesFirst (command :: later) = false)) :
    Admits S n k A start (obey h command).2 ∧
      (Admitted A (bay (obey h command).2 n).drive.buffer.window ∨
        ((bay (obey h command).2 n).drive.fetched = false ∧ writesFirst later = false)) := by
  have hstay := hamid.stays
  cases command with
  | status => exact ⟨ha, hbuffer⟩
  | read =>
    obtain ⟨hread, hready⟩ := ha.read hamid.selected
    exact ⟨hread, .inl (hready (hbuffer.symm.imp_left And.left))⟩
  | write byte =>
    have hadmitted := hbuffer.resolve_right fun hfirst => by cases hfirst.2
    obtain ⟨hwritten, hwindow⟩ :=
      ha.write hamid.selected hadmitted (hwrote _ byte (hamid.wrote byte rfl))
    exact ⟨hwritten, .inl hwindow⟩
  | function byte =>
    obtain ⟨hin, hout⟩ : (Control.ofByte byte).stepIn = false ∧
        (Control.ofByte byte).stepOut = false := by
      simpa [Command.stays] using hstay
    obtain ⟨hobeyed, hdrive⟩ := ha.function hamid.selected hin hout
    rw [hdrive]
    exact ⟨hobeyed, hbuffer⟩
  | _ => cases hstay

/-- A transfer keeps all admitted that was, if the buffer is fetched before bytes are written to it
or is admitted as it was. -/
theorem transfer (ha : Admits S n k A start start) {commands : List Command}
    (hstays : ∀ command ∈ commands, command.stays = true) (hselected : start.device.selected = n)
    (hwrote : ∀ i byte, WroteAt start commands i byte → A i byte)
    (hbuffer : Admitted A (bay start n).drive.buffer.window ∨
      ((bay start n).drive.fetched = false ∧ writesFirst commands = false)) :
    Admits S n k A start (afterCommands start commands) ∧
      (Admitted A (bay (afterCommands start commands) n).drive.buffer.window ∨
        (bay (afterCommands start commands) n).drive.fetched = false) := by
  obtain ⟨hend, hbuffered⟩ := transfer_induct
    (P := fun h later => Admits S n k A start h ∧
      (Admitted A (bay h n).drive.buffer.window ∨
        ((bay h n).drive.fetched = false ∧ writesFirst later = false)))
    hstays ha.kept hselected ha.loaded
    (fun _ _ _ hamid hP => hP.1.obey hamid hwrote hP.2) ⟨ha, hbuffer⟩
  exact ⟨hend, hbuffered.imp_right And.left⟩

end Admits

/-! ## What was left in the buffer -/

/-- A byte that is written and not stored is taken, and nothing else happens. -/
theorem write_unstored {h : Recording M R W} (hk : Kept h) {n : Fin driveCount}
    (hselected : h.device.selected = n) (hloaded : (bay h n).drive.isLoaded = true) {byte : UInt8}
    (hnone : storesBetween n h (obey h (.write byte)).2 = []) :
    (bay (obey h (.write byte)).2 n).drive = (bay h n).drive.written byte := by
  subst hselected
  have hobeyed : bay (obey h (.write byte)).2 h.device.selected =
      (bay h h.device.selected).follow ((bay h h.device.selected).drive.writeMotions byte) :=
    bay_obey h nofun
  rw [hobeyed]
  unfold Drive.writeMotions at hobeyed ⊢
  rw [if_pos hloaded] at hobeyed ⊢
  split
  · next hfull =>
    -- The byte ends a transfer, and the sector would have been stored.
    rw [if_pos hfull] at hobeyed
    have hclean : (bay (obey h (.write byte)).2 h.device.selected).drive.owed = [] := by
      rw [hobeyed]
      exact Drive.owed_of_clean (Bay.dirty_flush _)
    obtain ⟨taken, hcalls, hdrive, _, ha, _⟩ := hk.write byte
    obtain ⟨calls, hrecord, haccount⟩ := ha.recorded
    obtain ⟨medium, hmedium⟩ := Option.isSome_iff_exists.mp hloaded
    have hlabel : ((bay h h.device.selected).drive.written byte).label? = some medium.label :=
      congrArg (Option.map _) hmedium
    have howed := haccount h.device.selected
    rw [← storesBetween_eq (hcalls ▸ hrecord), hnone, hclean, hdrive, if_pos ⟨rfl, hloaded⟩,
      Drive.owed_of_dirty rfl hlabel] at howed
    cases howed
  · rfl

/-- A read from a dirty buffer leaves it as it is. -/
theorem read_dirty {h : Recording M R W} (hk : Kept h) {n : Fin driveCount}
    (hselected : h.device.selected = n) (hdirty : (bay h n).drive.dirty = true) :
    (bay (obey h .read).2 n).drive.dirty = true ∧
      (bay (obey h .read).2 n).drive.buffer = (bay h n).drive.buffer := by
  subst hselected
  have hready : (bay h h.device.selected).ready = bay h h.device.selected :=
    Bay.ready_of_fetched ((hk.sound _).fetched_of_dirty hdirty)
  have hobeyed : bay (obey h .read).2 h.device.selected =
      (bay h h.device.selected).follow (bay h h.device.selected).drive.readMotions :=
    bay_obey h nofun
  rw [hobeyed]
  unfold Drive.readMotions
  rw [if_pos ((hk.sound _).loaded_of_dirty hdirty), Bay.follow_cons,
    show (bay h h.device.selected).make .ready = bay h h.device.selected from hready]
  split <;> exact ⟨hdirty, rfl⟩

/-- A command of a transfer that begins with a written byte, and in the course of which nothing is
stored, leaves nothing in the buffer but what is written and what was there. -/
theorem leftover_obey {n : Fin driveCount} {A : Nat → UInt8 → Prop} {start h : Recording M R W}
    {commands later : List Command} {command : Command} (hamid : Amid n start commands h command)
    (hwrote : ∀ i byte, WroteAt start commands i byte → A i byte)
    (hnone : storesBetween n start (afterCommands start commands) = [])
    (hbuffer : Admitted A (bay h n).drive.buffer.window)
    (hfirst : (bay h n).drive.dirty = true ∨ writesFirst (command :: later) = true) :
    Admitted A (bay (obey h command).2 n).drive.buffer.window ∧
      ((bay (obey h command).2 n).drive.dirty = true ∨ writesFirst later = true) := by
  have hstay := hamid.stays
  cases command with
  | status => exact ⟨hbuffer, hfirst⟩
  | read =>
    have hdirty := hfirst.resolve_right fun hreads => by cases hreads
    obtain ⟨hdirty', hsame⟩ := read_dirty hamid.kept hamid.selected hdirty
    rw [hsame]
    exact ⟨hbuffer, .inl hdirty'⟩
  | write byte =>
    rw [write_unstored hamid.kept hamid.selected hamid.loaded (hamid.unstored hnone)]
    exact ⟨hbuffer.set (hwrote _ byte (hamid.wrote byte rfl)), .inl rfl⟩
  | function byte =>
    obtain ⟨hin, hout⟩ : (Control.ofByte byte).stepIn = false ∧
        (Control.ofByte byte).stepOut = false := by
      simpa [Command.stays] using hstay
    have hselected := hamid.selected
    subst hselected
    rw [obey_function_of_still hamid.loaded hin hout, bay_onBay_self]
    exact ⟨hbuffer, hfirst⟩
  | _ => cases hstay

/-- A transfer that begins with a written byte, and in the course of which nothing is stored, leaves
nothing in the buffer but what is written and what was there. -/
theorem leftover {n : Fin driveCount} {A : Nat → UInt8 → Prop} {start : Recording M R W}
    {commands : List Command} (hstays : ∀ command ∈ commands, command.stays = true)
    (hk : Kept start) (hselected : start.device.selected = n)
    (hloaded : (bay start n).drive.isLoaded = true) (hfirst : writesFirst commands = true)
    (hnone : storesBetween n start (afterCommands start commands) = [])
    (hwrote : ∀ i byte, WroteAt start commands i byte → A i byte)
    (hbuffer : Admitted A (bay start n).drive.buffer.window) :
    Admitted A (bay (afterCommands start commands) n).drive.buffer.window :=
  (transfer_induct
    (P := fun h later => Admitted A (bay h n).drive.buffer.window ∧
      ((bay h n).drive.dirty = true ∨ writesFirst later = true))
    hstays hk hselected hloaded
    (fun _ _ _ hamid hP => leftover_obey hamid hwrote hnone hP.1 hP.2)
    ⟨hbuffer, .inr hfirst⟩).1

/-! ## From the coming of a sector to its going -/

/-- A sector that comes under the head is not fetched, and the buffer is as it was left. -/
theorem unfetched_sector {h : Hosted (Controller M R) W}
    (hloaded : (bay h h.device.selected).drive.isLoaded = true) :
    (bay (obey h .sector).2 h.device.selected).drive.fetched = false ∧
      (bay (obey h .sector).2 h.device.selected).drive.buffer =
        (bay h h.device.selected).drive.buffer := by
  have hbay : bay (obey h .sector).2 h.device.selected =
      (bay h h.device.selected).follow (bay h h.device.selected).drive.sectorMotions :=
    bay_obey h nofun
  rw [hbay, Drive.sectorMotions, if_pos hloaded]
  exact ⟨rfl, (bay h h.device.selected).buffer_flush⟩

/-- When a sector has just come under the head nothing is stored yet, and all bytes that are to be
seen there are admitted if those of the medium are. -/
theorem admits_arrived {S : Sectored M R W} {A : Nat → UInt8 → Prop} {h : Recording M R W}
    (hk : Kept h) (hs : ∃ places, Steady S places (plain h))
    (hloaded : (bay h h.device.selected).drive.isLoaded = true)
    (hshown : ∀ bytes, view S (plain (obey h .sector).2) h.device.selected
      (bay (obey h .sector).2 h.device.selected).drive.place = some bytes → Admitted A bytes) :
    Admits S h.device.selected (bay (obey h .sector).2 h.device.selected).drive.place A
      (obey h .sector).2 (obey h .sector).2 := by
  obtain ⟨places, hs⟩ := hs
  refine ⟨(hk.grows .sector).1, ?_, (isLoaded_obey _ _ _).trans hloaded, rfl, hshown,
    [], (List.append_nil _).symm, nofun⟩
  rw [plain_obey]
  exact ⟨_, hs.obey .sector⟩

/-- What is stored in the course of commands and of an operation that writes no byte is stored by
the commands, or it is the dirty buffer after them. -/
theorem storesBetween_perform {start : Recording M R W} (hk : Kept start) (n : Fin driveCount)
    (commands : List Command) {op : Operation M} (turn : Nat)
    (hop : ∀ byte, op ≠ .command (.write byte)) {call : MediumCall}
    (hcall : call ∈ storesBetween n start
      (perform (afterCommands start commands) (op.labelled turn)).2) :
    call ∈ storesBetween n start (afterCommands start commands) ∨
      ((bay (afterCommands start commands) n).drive.dirty = true ∧ ∃ label, call =
        .store label ((bay (afterCommands start commands) n).drive.place.val * sectorSize)
          (bay (afterCommands start commands) n).drive.buffer.window.toArray) := by
  obtain ⟨hworked, calls, hcalls⟩ := hk.grows_after commands
  obtain ⟨calls', hcalls', howed⟩ := (hworked.perform turn hop).2.recorded
  have hgone : (perform (afterCommands start commands) (op.labelled turn)).2.host.calls =
      start.host.calls ++ (calls ++ calls') := by
    rw [hcalls', hcalls, List.append_assoc]
  rw [storesBetween_eq hgone, List.filter_append, ← storesBetween_eq hcalls] at hcall
  refine (List.mem_append.mp hcall).imp_right fun hlate => (hworked.sound n).mem_owed ?_
  rw [← howed n]
  exact List.mem_append_left _ hlate

/-- Where the bytes come from that are stored to a sector while it is under the head and when it
leaves: for every kind of media that are stores of sectors, after every past, when the next sector
has come under the head of a loaded drive, through every transfer that leaves the head there, and
through whatever else is done next. Each byte was written at its place in the transfer, or is the
one that the sector held when it came, or, only if the transfer writes before it reads, is the one
that had been left in the buffer by then. In a transfer that writes first and stores nothing on the
way, the bytes that are not written are those left in the buffer, whatever the sector held. -/
theorem stored_bytes_origin (S : Sectored M R W) {shared : R} {host : W} (base : UInt16)
    (past : List (Operation M)) (transfer : List Command) (next : Operation M) (turn : Nat)
    (hsane : S.Sane ∅ ⟨fun _ => none, shared, host⟩)
    (hfresh : ∀ drive medium, .load drive medium ∈ past → S.Fresh medium)
    (hstays : ∀ command ∈ transfer, command.stays = true)
    (hnext : ∀ byte, next ≠ .command (.write byte)) :
    let before : Recording M R W := after (fresh shared base ⟨host, []⟩) (labelledFrom 0 past)
    let n := before.device.selected
    let arrived := (obey before .sector).2
    let worked := afterCommands arrived transfer
    let gone := (perform worked (next.labelled turn)).2
    let k := (bay arrived n).drive.place
    (bay before n).drive.isLoaded = true →
    ∃ held, view S (plain arrived) n k = some held ∧
      (∀ call ∈ storesBetween n arrived gone, ∃ label, ∃ bytes : Sector,
        call = .store label (k.val * sectorSize) bytes.toArray ∧
        ∀ i byte, bytes[i]? = some byte →
          WroteAt arrived transfer i byte ∨ held[i]? = some byte ∨
            (writesFirst transfer = true ∧ (bay before n).drive.buffer[i]? = some byte)) ∧
      (writesFirst transfer = true → storesBetween n arrived worked = [] →
        ∀ call ∈ storesBetween n arrived gone, ∃ label, ∃ bytes : Sector,
          call = .store label (k.val * sectorSize) bytes.toArray ∧
          ∀ i byte, bytes[i]? = some byte →
            WroteAt arrived transfer i byte ∨ (bay before n).drive.buffer[i]? = some byte) := by
  intro before n arrived worked gone k hloaded
  have hplain : plain before = after (fresh shared base host) past := by
    rw [← plain_fresh]
    exact plain_after _ 0 past
  have hs : ∃ places, Steady S places (plain before) :=
    hplain ▸ (Steady.start base hsane).after hfresh
  have hbefore : Kept before := (Kept.start shared base host).after 0 past
  have hselected : arrived.device.selected = n := rfl
  have hstill : (bay arrived n).drive.isLoaded = true := (isLoaded_obey _ _ _).trans hloaded
  obtain ⟨held, hheld⟩ : ∃ held, view S (plain arrived) n k = some held := by
    rw [← Option.isSome_iff_exists, isSome_view, bay_plain]
    exact (bay arrived n).drive.isLoaded_plain.trans hstill
  have hstart : Admits S n k (fun i byte => WroteAt arrived transfer i byte ∨
      held[i]? = some byte ∨
        (writesFirst transfer = true ∧ (bay before n).drive.buffer[i]? = some byte))
      arrived arrived := by
    refine admits_arrived hbefore hs hloaded fun bytes hbytes i byte hbyte => ?_
    rw [Option.some.inj (hheld.symm.trans hbytes)]
    exact .inr (.inl hbyte)
  obtain ⟨hfetched, hsame⟩ := unfetched_sector hloaded
  have hleft {A : Nat → UInt8 → Prop}
      (hadmits : ∀ i byte, (bay before n).drive.buffer[i]? = some byte → A i byte) :
      Admitted A (bay arrived n).drive.buffer.window := by
    intro i byte hbyte
    rw [hsame, Buffer.getElem?_window] at hbyte
    split at hbyte
    · exact hadmits i byte hbyte
    · cases hbyte
  obtain ⟨hend, hbuffered⟩ := hstart.transfer hstays hselected (fun _ _ => .inl) (by
    cases hfirst : writesFirst transfer with
    | false => exact .inr ⟨hfetched, rfl⟩
    | true => exact .inl (hleft fun i byte hbyte => .inr (.inr ⟨rfl, hbyte⟩)))
  refine ⟨held, hheld, fun call hcall => ?_, fun hfirst hnone call hcall => ?_⟩
  · rcases storesBetween_perform hstart.kept n transfer turn hnext hcall with
      hcall | ⟨hdirty, label, rfl⟩
    · obtain ⟨calls, hcalls, hstored⟩ := hend.recorded
      rw [storesBetween_eq hcalls] at hcall
      exact hstored call hcall
    · refine ⟨label, _, by rw [hend.here], hbuffered.resolve_right fun hunfetched => ?_⟩
      have hcontra := (hend.kept.sound n).fetched_of_dirty hdirty
      exact absurd (hcontra.symm.trans hunfetched) (by decide)
  · have hadmitted := leftover
      (A := fun i byte => WroteAt arrived transfer i byte ∨
        (bay before n).drive.buffer[i]? = some byte)
      hstays hstart.kept hselected hstill hfirst hnone (fun _ _ => .inl) (hleft fun _ _ => .inr)
    rcases storesBetween_perform hstart.kept n transfer turn hnext hcall with
      hcall | ⟨_, label, rfl⟩
    · rw [hnone] at hcall
      cases hcall
    · exact ⟨label, _, by rw [hend.here], hadmitted⟩

/-- A first sector is read, and one byte is written to the second: the bytes stored with it are
those of the first. -/
theorem stored_bytes_origin_after_one_write :
    let past : List (Operation CopyOnWrite) :=
      [.load 0 { image := #[0x11, 0x11] }, .command .sector, .command .read]
    let before : Recording CopyOnWrite PatchPool Unit :=
      after (fresh (PatchPool.ofCapacity 1) 8 ⟨(), []⟩) (labelledFrom 0 past)
    let arrived := (obey before .sector).2
    let gone := (perform (afterCommands arrived [.write 0x22]) (.command .sector)).2
    ∃ held, view (CopyOnWrite.sectored 1) (plain arrived) 0 (bay arrived 0).drive.place =
        some held ∧
      ∀ call ∈ storesBetween 0 arrived gone, ∃ label, ∃ bytes : Sector,
        call = .store label ((bay arrived 0).drive.place.val * sectorSize) bytes.toArray ∧
        ∀ i byte, bytes[i]? = some byte →
          WroteAt arrived [.write 0x22] i byte ∨ (bay before 0).drive.buffer[i]? = some byte := by
  intro past before arrived gone
  have hfresh : ∀ drive medium, .load drive medium ∈ past → medium.patches = .empty := by
    intro drive medium hload
    obtain ⟨_, rfl⟩ : drive = 0 ∧ medium = { image := #[0x11, 0x11] } := by
      simpa [past] using hload
    rfl
  obtain ⟨held, hheld, _, hleft⟩ := stored_bytes_origin (CopyOnWrite.sectored 1) 8 past
    [.write 0x22] (.command .sector) 3 (CopyOnWrite.Patched.start 1 () nofun) hfresh
    (by decide) (fun _ hwrite => nomatch hwrite) (by decide +kernel)
  exact ⟨held, hheld, hleft rfl (by decide +kernel)⟩

/-- A byte that was left in the buffer from one sector is stored to the next, where nothing was
written and the sector held zeros. -/
theorem leftover_byte_is_stored :
    let before : Recording CopyOnWrite PatchPool Unit :=
      after (fresh (PatchPool.ofCapacity 1) 8 ⟨(), []⟩)
        (labelledFrom 0 [.load 0 { image := #[0x11, 0x11] }, .command .sector, .command .read])
    let arrived := (obey before .sector).2
    let gone := (perform (afterCommands arrived [.write 0x22]) (.command .sector)).2
    storesBetween 0 arrived gone =
        [.store ⟨0, 0⟩ sectorSize (#[0x22, 0x11] ++ Array.replicate 135 0)] ∧
      view (CopyOnWrite.sectored 1) (plain arrived) 0 1 = some (Vector.replicate sectorSize 0) ∧
      ∀ byte, ¬WroteAt arrived [.write 0x22] 1 byte := by
  intro before arrived gone
  refine ⟨by decide +kernel, ?_, ?_⟩
  · decide +kernel
  · rintro byte ⟨earlier, later, hcommands, hplace⟩
    cases earlier with
    | nil => exact absurd hplace (by decide +kernel)
    | cons command earlier => cases earlier <;> cases hcommands

end Controller

end HardSector
