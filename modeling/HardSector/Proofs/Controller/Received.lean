import HardSector.Proofs.Controller.Operation

/-!
# What a drive has received

Commands go to the drive that is selected when their turn comes. A logbook keeps, for every
drive, those that it was given since its medium was last changed. What these commands tell
of a drive at its start, and still tell of it after each command and each flush, they tell of
every loaded drive after every run, whatever is done to the other drives.
-/

namespace HardSector

/-- The drive that is selected, and the commands that each drive was given since a medium was last
put into it or taken out. -/
structure Logbook where
  selected : Nat := 0
  received : Fin driveCount → List Command := fun _ => []

namespace Logbook

/-- The drive that is selected after a command. -/
def selection (selected : Nat) : Command → Nat
  | .select byte => if byte.toNat % 16 < driveCount then byte.toNat % 16 else 0
  | _ => selected

/-- The logbook with one more operation entered. -/
def enter {M : Type} (log : Logbook) : Operation M → Logbook
  | .load drive _ => { log with received := fun n => if drive = n then [] else log.received n }
  | .eject drive => { log with received := fun n => if drive = n then [] else log.received n }
  | .command command =>
    { selected := selection log.selected command
      received := fun n =>
        if log.selected = n then log.received n ++ [command] else log.received n }

/-- The logbook of a run that begins with a new controller. -/
def ofRun {M : Type} (ops : List (Operation M)) : Logbook := ops.foldl enter {}

end Logbook

/-- How many commands of one kind were received after the last one of another kind, or at all if
there was none. -/
def countSince (resets counts : Command → Bool) (commands : List Command) : Nat :=
  (commands.reverse.takeWhile fun command => !resets command).countP counts

section CountSince

variable {resets : Command → Bool} {command : Command}

/-- A command that resets the count leaves nothing counted. -/
theorem countSince_reset (hreset : resets command = true) (counts : Command → Bool)
    (commands : List Command) : countSince resets counts (commands ++ [command]) = 0 := by
  unfold countSince
  rw [List.reverse_concat, List.takeWhile_cons, hreset]
  rfl

/-- Another command is counted if it is of the kind that is. -/
theorem countSince_still (hstill : resets command = false) (counts : Command → Bool)
    (commands : List Command) :
    countSince resets counts (commands ++ [command]) =
      countSince resets counts commands + if counts command then 1 else 0 := by
  unfold countSince
  rw [List.reverse_concat, List.takeWhile_cons, hstill, Bool.not_false, if_pos rfl,
    List.countP_cons]

end CountSince

/-- Whether a command is for the selected drive to obey. -/
def Command.drives : Command → Bool
  | .select _ => false
  | .status => false
  | .flush => false
  | _ => true

variable {M R W : Type} {P : List Command → Drive M → Prop}

/-- Something that the commands received by a loaded drive tell of it: it is so when the medium has
just been put in, no flush changes it, and it stays so with every command the drive receives. -/
structure Tells (P : List Command → Drive M → Prop) (R W : Type) [Medium M R W] : Prop where
  start : ∀ (medium : M) (drive : Drive M), P [] (drive.holding medium)
  flush : ∀ {commands : List Command} {bay : Bay M R W}, P commands bay.drive →
    P commands bay.flush.drive
  function : ∀ {commands : List Command} {bay : Bay M R W} (byte : UInt8),
    bay.drive.isLoaded = true → P commands bay.drive →
      P (commands ++ [.function byte]) (bay.function (.ofByte byte)).drive
  sector : ∀ {commands : List Command} {bay : Bay M R W}, bay.drive.isLoaded = true →
    P commands bay.drive → P (commands ++ [.sector]) bay.nextSector.2.drive
  read : ∀ {commands : List Command} {bay : Bay M R W}, bay.drive.isLoaded = true →
    P commands bay.drive → P (commands ++ [.read]) bay.readByte.2.drive
  write : ∀ {commands : List Command} {bay : Bay M R W} (byte : UInt8),
    bay.drive.isLoaded = true → P commands bay.drive →
      P (commands ++ [.write byte]) (bay.writeByte byte).drive
  other : ∀ {commands : List Command} {drive : Drive M} {command : Command},
    command.drives = false → P commands drive → P (commands ++ [command]) drive

/-- What commands tell of a loaded drive, they and the next one tell of it when it has obeyed. -/
theorem Tells.obey [Medium M R W] (ht : Tells P R W) {commands : List Command} {bay : Bay M R W}
    (command : Command) (hloaded : bay.drive.isLoaded = true) (htold : P commands bay.drive) :
    P (commands ++ [command]) (bay.follow (command.motions bay.drive)).drive := by
  rw [Bay.follow_motions]
  cases command with
  | function byte => exact ht.function byte hloaded htold
  | sector => exact ht.sector hloaded htold
  | read => exact ht.read hloaded htold
  | write byte => exact ht.write byte hloaded htold
  | _ => exact ht.other rfl htold

namespace Controller

variable {log : Logbook} {received : Fin driveCount → List Command} {h : Hosted (Controller M R) W}

/-- Commands tell of every loaded drive what they should. -/
def Told (P : List Command → Drive M → Prop) (received : Fin driveCount → List Command)
    (h : Hosted (Controller M R) W) : Prop :=
  ∀ n, (bay h n).drive.isLoaded = true → P (received n) (bay h n).drive

/-- A logbook has the selected drive right, and its commands tell of the loaded drives what they
should. -/
structure LoggedAs (P : List Command → Drive M → Prop) (log : Logbook)
    (h : Hosted (Controller M R) W) : Prop where
  selected : log.selected = h.device.selected.val
  told : Told P log.received h

/-- The drives of a new controller have received nothing, and none of them is loaded. -/
theorem LoggedAs.fresh (shared : R) (base : UInt16) (host : W) :
    LoggedAs P {} (fresh (M := M) shared base host) := by
  refine ⟨rfl, fun n hloaded => ?_⟩
  have hempty : (bay (Controller.fresh (M := M) shared base host) n).drive.isLoaded = false := by
    simp [bay, Controller.fresh, ofShared, Drive.isLoaded]
  exact absurd (hempty.symm.trans hloaded) Bool.false_ne_true

variable [Medium M R W]

/-- A command leaves that drive selected which the logbook says. -/
theorem selected_obey_eq (h : Hosted (Controller M R) W) (command : Command) :
    (obey h command).2.device.selected.val = Logbook.selection h.device.selected.val command := by
  cases command with
  | select byte =>
    change (if hn : byte.toNat % 16 < driveCount then ⟨byte.toNat % 16, hn⟩ else 0 :
      Fin driveCount).val = if byte.toNat % 16 < driveCount then byte.toNat % 16 else 0
    split
    · rfl
    · rfl
  | flush =>
    exact flushAll_induct (P := fun h' => h'.device.selected.val = h.device.selected.val)
      (fun _ _ heq => heq) rfl
  | _ => rfl

/-- Flushing all drives changes nothing that commands tell. -/
theorem Told.flushAll (ht : Tells P R W) (htold : Told P received h) :
    Told P received (flushAll h) := by
  refine flushAll_induct (P := Told P received) (fun m h htold n hloaded => ?_) htold
  rw [isLoaded_onBay (Bay.isLoaded_flush _)] at hloaded
  rw [drive_onBay]
  split
  · next heq =>
    subst heq
    exact ht.flush (htold n hloaded)
  · exact htold n hloaded

namespace LoggedAs

/-- What the selected drive does on a command is told once the command is in the logbook. -/
theorem followed (hl : LoggedAs P log h) (ht : Tells P R W) (command : Command) :
    Told P (log.enter (.command command : Operation M)).received
      (onBay h.device.selected
        (fun bay => bay.follow (command.motions h.device.selectedDrive)) h) := by
  intro n hloaded
  rw [isLoaded_onBay (Bay.isLoaded_follow _ _)] at hloaded
  simp only [Logbook.enter, hl.selected]
  by_cases hn : h.device.selected = n
  · subst hn
    rw [if_pos rfl, bay_onBay_self]
    exact ht.obey command hloaded (hl.told _ hloaded)
  · rw [if_neg fun heq => hn (Fin.ext heq), drive_onBay_of_ne _ _ (Ne.symm hn)]
    exact hl.told n hloaded

/-- A command is entered for the selected drive. -/
theorem obey (hl : LoggedAs P log h) (ht : Tells P R W) (command : Command) :
    LoggedAs P (log.enter (.command command : Operation M)) (obey h command).2 := by
  have hfollowed := hl.followed ht command
  constructor
  · rw [selected_obey_eq, ← hl.selected]
    rfl
  · rw [obey_eq]
    cases command with
    | select byte =>
      rw [onBay_of_eq rfl] at hfollowed
      exact hfollowed
    | status =>
      rw [onBay_of_eq rfl] at hfollowed
      exact hfollowed
    | flush =>
      rw [onBay_of_eq rfl] at hfollowed
      exact hfollowed.flushAll ht
    | _ => exact hfollowed

/-- An operation is entered in the logbook. -/
theorem perform (hl : LoggedAs P log h) (ht : Tells P R W) (op : Operation M) :
    LoggedAs P (log.enter op) (perform h op).2 := by
  cases op with
  | load drive medium =>
    constructor
    · rw [perform_load]
      split <;> exact hl.selected
    · intro n hloaded
      rw [drive_perform_load] at hloaded ⊢
      simp only [Logbook.enter]
      split
      · exact ht.start medium _
      · next hne =>
        rw [if_neg hne] at hloaded
        exact hl.told n hloaded
  | eject drive =>
    constructor
    · rw [perform_eject]
      split <;> exact hl.selected
    · intro n hloaded
      rw [drive_perform_eject] at hloaded ⊢
      split at hloaded
      · cases hloaded
      · next hne =>
        simp only [Logbook.enter, if_neg hne]
        exact hl.told n hloaded
  | command command => exact hl.obey ht command

/-- A run is entered in the logbook, one operation after the other. -/
theorem after (hl : LoggedAs P log h) (ht : Tells P R W) (ops : List (Operation M)) :
    LoggedAs P (ops.foldl Logbook.enter log) (after h ops) := by
  induction ops generalizing log h with
  | nil => exact hl
  | cons op ops ih => exact ih (hl.perform ht op)

end LoggedAs

/-- After every run, the commands that a loaded drive has received since its medium was put in tell
of it what they should. -/
theorem told_after (ht : Tells P R W) (shared : R) (base : UInt16) (host : W)
    (ops : List (Operation M)) :
    Told P (Logbook.ofRun ops).received (after (fresh shared base host) ops) :=
  ((LoggedAs.fresh shared base host).after ht ops).told

end Controller

end HardSector
