import HardSector.Controller
import HardSector.Proofs.Drive.Motion
import HardSector.Proofs.Run

/-!
# Runs of a controller

A guest gives a controller commands through its registers, and the operator puts media
into its drives and takes them out. Every such operation acts on the bay of one drive, and
only flushing acts on all of them, one after the other.
-/

namespace HardSector

/-! ## Bays of a controller -/

namespace Controller

variable {M R W : Type}

/-- A drive of a controller with the site at which its medium works. -/
def bay (h : Hosted (Controller M R) W) (n : Fin driveCount) : Bay M R W :=
  ⟨getElem h.device.drives n.val n.isLt, ⟨h.device.shared, h.host, h.notices⟩⟩

/-- Let something be done to one of the bays. -/
def onBay (n : Fin driveCount) (act : Bay M R W → Bay M R W) (h : Hosted (Controller M R) W) :
    Hosted (Controller M R) W :=
  ⟨{ h.device with
      drives := h.device.drives.set n (act (bay h n)).drive n.isLt
      shared := (act (bay h n)).site.shared },
    (act (bay h n)).site.host, (act (bay h n)).site.notices⟩

/-- An operation of a drive answers and leaves what it does to the bay. -/
theorem onDrive_eq {α : Type} (h : Hosted (Controller M R) W) (n : Fin driveCount)
    (act : Bay M R W → α × Bay M R W) :
    onDrive h n act = ((act (bay h n)).1, onBay n (fun bay => (act bay).2) h) := rfl

section OnBay

variable (n m : Fin driveCount) (act : Bay M R W → Bay M R W) (h : Hosted (Controller M R) W)

/-- What was done to a bay is to be seen there. -/
@[simp] theorem bay_onBay_self : bay (onBay n act h) n = act (bay h n) := by
  simp [bay, onBay]

/-- The drive of a bay that something was done to, and the other drives as they were. -/
theorem drive_onBay :
    (bay (onBay n act h) m).drive = if m = n then (act (bay h n)).drive else (bay h m).drive := by
  simp only [bay, onBay, Vector.getElem_set, Fin.ext_iff, eq_comm (a := n.val)]

/-- The other drives are as they were. -/
theorem drive_onBay_of_ne {n m : Fin driveCount} (hne : m ≠ n) :
    (bay (onBay n act h) m).drive = (bay h m).drive := by
  rw [drive_onBay, if_neg hne]

/-- What leaves the drive of a bay loaded or empty leaves all drives so. -/
theorem isLoaded_onBay {h : Hosted (Controller M R) W} {m : Fin driveCount}
    {act : Bay M R W → Bay M R W}
    (hact : (act (bay h m)).drive.isLoaded = (bay h m).drive.isLoaded) (n : Fin driveCount) :
    (bay (onBay m act h) n).drive.isLoaded = (bay h n).drive.isLoaded := by
  rw [drive_onBay]
  split
  · next heq =>
    rw [heq]
    exact hact
  · rfl

@[simp] theorem selected_onBay : (onBay n act h).device.selected = h.device.selected := rfl

@[simp] theorem shared_onBay : (onBay n act h).device.shared = (act (bay h n)).site.shared := rfl

/-- Only what is done to the bay as it stands matters. -/
theorem onBay_congr {n : Fin driveCount} (act act' : Bay M R W → Bay M R W)
    {h : Hosted (Controller M R) W} (hact : act (bay h n) = act' (bay h n)) :
    onBay n act h = onBay n act' h := by
  unfold onBay
  rw [hact]

/-- What leaves a bay as it is leaves the controller as it is. -/
theorem onBay_of_eq {n : Fin driveCount} {act : Bay M R W → Bay M R W}
    {h : Hosted (Controller M R) W} (hact : act (bay h n) = bay h n) : onBay n act h = h := by
  have hid : onBay n act h = onBay n id h := onBay_congr _ _ hact
  rw [hid]
  simp [onBay, bay]

/-- Two things done to a bay are done one after the other. -/
theorem onBay_comp (act' : Bay M R W → Bay M R W) :
    onBay n (fun bay => act' (act bay)) h = onBay n act' (onBay n act h) := by
  have hset : (h.device.drives.set n (act (bay h n)).drive).set n
      (act' (act (bay h n))).drive = h.device.drives.set n (act' (act (bay h n))).drive := by
    simp
  unfold onBay
  rw [show bay ⟨{ h.device with
      drives := h.device.drives.set n (act (bay h n)).drive n.isLt
      shared := (act (bay h n)).site.shared },
    (act (bay h n)).site.host, (act (bay h n)).site.notices⟩ n = act (bay h n) from
      bay_onBay_self n act h]
  simp only [hset]

end OnBay

variable [Medium M R W]

/-- Motions of a bay are made one after another. -/
theorem onBay_follow_cons (n : Fin driveCount) (motion : Motion) (motions : List Motion)
    (h : Hosted (Controller M R) W) :
    onBay n (fun bay => bay.follow (motion :: motions)) h =
      onBay n (fun bay => bay.follow motions) (onBay n (fun bay => bay.make motion) h) := by
  rw [← onBay_comp]
  rfl

/-- What every flush of one drive keeps, flushing all drives keeps. -/
theorem flushAll_induct {P : Hosted (Controller M R) W → Prop}
    (hflush : ∀ n h, P h → P (onBay n Bay.flush h)) {h : Hosted (Controller M R) W} (hP : P h) :
    P (flushAll h) := by
  unfold flushAll
  generalize List.finRange driveCount = order
  induction order generalizing h with
  | nil => exact hP
  | cons n rest ih => exact ih (hflush n h hP)

/-- Nothing is pending in any drive after all were flushed. -/
theorem dirty_flushAll (h : Hosted (Controller M R) W) (n : Fin driveCount) :
    (bay (flushAll h) n).drive.dirty = false := by
  suffices hflushed : ∀ (order : List (Fin driveCount)) (h : Hosted (Controller M R) W),
      n ∈ order ∨ (bay h n).drive.dirty = false →
        (bay (order.foldl (fun h m => onBay m Bay.flush h) h) n).drive.dirty = false from
    hflushed _ h (.inl (List.mem_finRange n))
  intro order
  induction order with
  | nil => exact fun h hn => hn.resolve_left List.not_mem_nil
  | cons m order ih =>
    refine fun h hn => ih (onBay m Bay.flush h) ?_
    rcases hn with hmem | hclean
    · rcases List.mem_cons.mp hmem with rfl | hmem
      · right
        rw [bay_onBay_self]
        exact Bay.dirty_flush _
      · exact .inl hmem
    · right
      rw [drive_onBay]
      split
      · exact Bay.dirty_flush _
      · exact hclean

/-- A second flush of all drives changes nothing. -/
theorem flushAll_flushAll (h : Hosted (Controller M R) W) :
    flushAll (flushAll h) = flushAll h := by
  refine flushAll_induct (P := fun h' => h' = flushAll h) (fun n h' heq => ?_) rfl
  rw [onBay_of_eq, heq]
  rw [heq]
  exact Bay.flush_of_clean (dirty_flushAll h n)

end Controller

/-! ## Commands and operations -/

/-- What a guest can have a controller do through its registers, and the flush of all drives. -/
inductive Command where
  | select (byte : UInt8)
  | status
  | function (byte : UInt8)
  | sector
  | read
  | write (byte : UInt8)
  | flush
deriving DecidableEq, Repr

/-- What is answered to a command. -/
inductive Reply where
  | done
  | byte (value : UInt8)
  | fault (cause : Fault)
deriving DecidableEq, Repr

/-- The reply to an access that may be impossible. -/
def Reply.ofResult : Except Fault UInt8 → Reply
  | .ok value => .byte value
  | .error cause => .fault cause

/-- What a guest or the operator can do to a controller. -/
inductive Operation (M : Type) where
  | load (drive : Nat) (medium : M)
  | eject (drive : Nat)
  | command (command : Command)

/-- What is answered to an operation. -/
inductive Answer (M : Type) where
  | loaded
  | ejected (medium : Option M)
  | refused (cause : DiskError)
  | reply (reply : Reply)

namespace Controller

variable {M R W : Type} [Medium M R W]

/-- Obey a command. -/
def obey (h : Hosted (Controller M R) W) : Command → Reply × Hosted (Controller M R) W
  | .select byte => (.done, { h with device := h.device.select byte })
  | .status => (.byte h.device.status, h)
  | .function byte => (.done, function h byte)
  | .sector => (.byte (sector h).1, (sector h).2)
  | .read => (.ofResult (read h).1, (read h).2)
  | .write byte => (.done, write h byte)
  | .flush => (.done, flushAll h)

/-- Do an operation. -/
def perform (h : Hosted (Controller M R) W) : Operation M → Answer M × Hosted (Controller M R) W
  | .load drive medium =>
    match load h drive medium with
    | (.ok (), h) => (.loaded, h)
    | (.error cause, h) => (.refused cause, h)
  | .eject drive =>
    match eject h drive with
    | (.ok medium, h) => (.ejected medium, h)
    | (.error cause, h) => (.refused cause, h)
  | .command command => (.reply (obey h command).1, (obey h command).2)

/-- A controller with empty drives in a host. -/
def fresh (shared : R) (base : UInt16) (host : W) : Hosted (Controller M R) W :=
  ⟨.ofShared shared base, host, []⟩

/-- The controller after a list of operations. -/
abbrev after (h : Hosted (Controller M R) W) (ops : List (Operation M)) :
    Hosted (Controller M R) W := Run.final perform h ops

/-- The controller after a list of commands. -/
abbrev afterCommands (h : Hosted (Controller M R) W) (commands : List Command) :
    Hosted (Controller M R) W := Run.final obey h commands

/-! ## One operation at a time -/

variable (h : Hosted (Controller M R) W)

/-- A medium is put into the bay of a drive that exists; otherwise nothing happens. -/
theorem perform_load (drive : Nat) (medium : M) :
    perform h (.load drive medium) =
      if hn : drive < driveCount then
        (.loaded, onBay ⟨drive, hn⟩ (fun bay => bay.load medium) h)
      else (.refused (.invalidDrive drive), h) := by
  unfold perform load
  by_cases hn : drive < driveCount
  · simp only [dif_pos hn, onDrive_eq]
  · simp only [dif_neg hn]

/-- The medium is taken out of the bay of a drive that exists; otherwise nothing happens. -/
theorem perform_eject (drive : Nat) :
    perform h (.eject drive) =
      if hn : drive < driveCount then
        (.ejected (bay h ⟨drive, hn⟩).eject.1, onBay ⟨drive, hn⟩ (fun bay => bay.eject.2) h)
      else (.refused (.invalidDrive drive), h) := by
  unfold perform eject
  by_cases hn : drive < driveCount
  · simp only [dif_pos hn, onDrive_eq]
  · simp only [dif_neg hn]

/-- A medium that is put into a drive changes that drive only. -/
theorem drive_perform_load (drive : Nat) (medium : M) (n : Fin driveCount) :
    (bay (perform h (.load drive medium)).2 n).drive =
      if drive = n then Drive.holding medium { number := (bay h n).drive.number }
      else (bay h n).drive := by
  rw [perform_load]
  by_cases heq : drive = n
  · subst heq
    rw [dif_pos n.isLt, if_pos rfl, bay_onBay_self, Bay.drive_load]
  · rw [if_neg heq]
    split
    · exact drive_onBay_of_ne _ _ fun hn => heq (congrArg Fin.val hn).symm
    · rfl

/-- A drive from which the medium is taken is empty; the other drives are as they were. -/
theorem drive_perform_eject (drive : Nat) (n : Fin driveCount) :
    (bay (perform h (.eject drive)).2 n).drive =
      if drive = n then { number := (bay h n).drive.number } else (bay h n).drive := by
  rw [perform_eject]
  by_cases heq : drive = n
  · subst heq
    rw [dif_pos n.isLt, if_pos rfl, bay_onBay_self, Bay.drive_eject]
  · rw [if_neg heq]
    split
    · exact drive_onBay_of_ne _ _ fun hn => heq (congrArg Fin.val hn).symm
    · rfl

end Controller

/-- The motions of a command at the selected drive. -/
def Command.motions {M : Type} (drive : Drive M) : Command → List Motion
  | .select _ => []
  | .status => []
  | .function byte => drive.functionMotions (Control.ofByte byte)
  | .sector => drive.sectorMotions
  | .read => drive.readMotions
  | .write byte => drive.writeMotions byte
  | .flush => []

/-- The motions of a command are an operation of the drive, or nothing. -/
theorem Bay.follow_motions {M R W : Type} [Medium M R W] (bay : Bay M R W) (command : Command) :
    bay.follow (command.motions bay.drive) =
      match command with
      | .function byte => bay.function (.ofByte byte)
      | .sector => bay.nextSector.2
      | .read => bay.readByte.2
      | .write byte => bay.writeByte byte
      | _ => bay := by
  cases command with
  | function byte => exact (bay.function_follow _).symm
  | sector => exact bay.nextSector_follow.symm
  | read => exact bay.readByte_follow.symm
  | write byte => exact (bay.writeByte_follow byte).symm
  | _ => rfl

namespace Controller

variable {M R W : Type} [Medium M R W]

/-- A command selects a drive, flushes all drives or follows its motions at the selected one. -/
theorem obey_eq (h : Hosted (Controller M R) W) (command : Command) :
    (obey h command).2 =
      match command with
      | .select byte => { h with device := h.device.select byte }
      | .status => h
      | .flush => flushAll h
      | command =>
        onBay h.device.selected
          (fun bay => bay.follow (command.motions h.device.selectedDrive)) h := by
  cases command with
  | select byte => rfl
  | status => rfl
  | function byte =>
    exact onBay_congr (fun bay => bay.function (Control.ofByte byte)) _
      ((bay h h.device.selected).function_follow (Control.ofByte byte))
  | sector =>
    exact onBay_congr (fun bay => bay.nextSector.2) _ (bay h h.device.selected).nextSector_follow
  | read =>
    exact onBay_congr (fun bay => bay.readByte.2) _ (bay h h.device.selected).readByte_follow
  | write byte =>
    exact onBay_congr (fun bay => bay.writeByte byte) _
      ((bay h h.device.selected).writeByte_follow byte)
  | flush => rfl

/-- A command leaves loaded drives loaded and empty ones empty. -/
theorem isLoaded_obey (h : Hosted (Controller M R) W) (command : Command) (n : Fin driveCount) :
    (bay (obey h command).2 n).drive.isLoaded = (bay h n).drive.isLoaded := by
  rw [obey_eq]
  cases command with
  | select byte => rfl
  | status => rfl
  | flush =>
    refine flushAll_induct (P := fun h' => (bay h' n).drive.isLoaded = (bay h n).drive.isLoaded)
      (fun m h' heq => ?_) rfl
    rw [isLoaded_onBay (Bay.isLoaded_flush _), heq]
  | _ => exact isLoaded_onBay (Bay.isLoaded_follow _ _) n

/-- The bay of the selected drive goes through the motions of a command on it. -/
theorem bay_obey (h : Hosted (Controller M R) W) {command : Command} (hflush : command ≠ .flush) :
    bay (obey h command).2 h.device.selected =
      (bay h h.device.selected).follow (command.motions (bay h h.device.selected).drive) := by
  rw [obey_eq]
  cases command with
  | select byte => rfl
  | status => rfl
  | flush => exact absurd rfl hflush
  | _ => exact bay_onBay_self ..

end Controller

/-! ## What is so of every drive -/

section Lasting

variable {M R W : Type} {P : Drive M → Prop}

/-- Something that is so of every empty and of every freshly loaded drive, and stays so through
flushes and commands. -/
structure Lasting (P : Drive M → Prop) (R W : Type) [Medium M R W] : Prop where
  empty : ∀ number, P { number := number }
  loaded : ∀ (medium : M) (drive : Drive M), P (drive.holding medium)
  flush : ∀ {bay : Bay M R W}, P bay.drive → P bay.flush.drive
  obey : ∀ {bay : Bay M R W} (command : Command), P bay.drive →
    P (bay.follow (command.motions bay.drive)).drive

namespace Controller

/-- What is so of all drives is so when something has been done to a bay and it is so of the drive
there. -/
theorem all_onBay {h : Hosted (Controller M R) W} (hP : ∀ n, P (bay h n).drive)
    {m : Fin driveCount} {act : Bay M R W → Bay M R W} (hact : P (act (bay h m)).drive)
    (n : Fin driveCount) : P (bay (onBay m act h) n).drive := by
  rw [drive_onBay]
  split
  · exact hact
  · exact hP n

/-- What is so of every empty drive is so of the drives of a new controller. -/
theorem all_fresh (hempty : ∀ number, P { number := number }) (shared : R) (base : UInt16)
    (host : W) (n : Fin driveCount) : P (bay (fresh (M := M) shared base host) n).drive := by
  have hdrive : (bay (fresh (M := M) shared base host) n).drive = { number := n.val } := by
    simp [bay, fresh, ofShared]
  rw [hdrive]
  exact hempty _

end Controller

variable [Medium M R W]

/-- What lasts is so of all drives after an operation. -/
theorem Lasting.perform (hl : Lasting P R W) {h : Hosted (Controller M R) W}
    (hP : ∀ n, P (Controller.bay h n).drive) (op : Operation M) (n : Fin driveCount) :
    P (Controller.bay (Controller.perform h op).2 n).drive := by
  cases op with
  | load drive medium =>
    rw [Controller.drive_perform_load]
    split
    · exact hl.loaded medium _
    · exact hP n
  | eject drive =>
    rw [Controller.drive_perform_eject]
    split
    · exact hl.empty _
    · exact hP n
  | command command =>
    change P (Controller.bay (Controller.obey h command).2 n).drive
    rw [Controller.obey_eq]
    cases command with
    | select byte => exact hP n
    | status => exact hP n
    | flush =>
      exact Controller.flushAll_induct (P := fun h => ∀ n, P (Controller.bay h n).drive)
        (fun m h hP => Controller.all_onBay hP (hl.flush (hP m))) hP n
    | _ => exact Controller.all_onBay hP (hl.obey _ (hP _)) n

/-- What lasts is so of all drives after every run of a new controller. -/
theorem Lasting.after (hl : Lasting P R W) (shared : R) (base : UInt16) (host : W)
    (ops : List (Operation M)) :
    ∀ n, P (Controller.bay (Controller.after (Controller.fresh shared base host) ops) n).drive :=
  Run.final_induct (P := fun h => ∀ n, P (Controller.bay h n).drive)
    (Controller.all_fresh hl.empty shared base host) fun _ op _ hP => hl.perform hP op

end Lasting

end HardSector
