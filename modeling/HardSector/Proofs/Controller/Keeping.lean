import HardSector.Proofs.Controller.Steady

/-!
# What a run spares of a sector

A sector that holds some bytes, and at which nothing is pending, keeps them through every
operation but a write to its drive while the buffer lies at this sector, and through every
change of media in the other drives.
-/

namespace HardSector.Controller

variable {M R W : Type} [Medium M R W]

/-- A steady controller that shows some bytes of a sector, with nothing pending there. -/
structure Keeps (S : Sectored M R W) (n : Fin driveCount) (k : Fin diskSectors) (bytes : Sector)
    (h : Hosted (Controller M R) W) : Prop where
  steady : ∃ places, Steady S places h
  shown : view S h n k = some bytes
  settled : ¬((bay h n).drive.dirty = true ∧ (bay h n).drive.place = k)

namespace Keeps

variable {S : Sectored M R W} {n : Fin driveCount} {k : Fin diskSectors} {bytes : Sector}
  {h : Hosted (Controller M R) W}

/-- All drives are sound. -/
theorem sound (hk : Keeps S n k bytes h) : Sound h := by
  obtain ⟨places, hs⟩ := hk.steady
  exact hs.sound

/-- The drive of the sector is loaded. -/
theorem loaded (hk : Keeps S n k bytes h) : (bay h n).drive.isLoaded = true := by
  rw [← isSome_view S h n k, hk.shown]
  rfl

/-- A flush of a drive stores elsewhere. -/
theorem flush (hk : Keeps S n k bytes h) (m : Fin driveCount) :
    Keeps S n k bytes (onBay m Bay.flush h) := by
  obtain ⟨places, hs⟩ := hk.steady
  obtain ⟨kept, hsteady, _, _, hview⟩ := hs.flush m
  refine ⟨⟨_, hsteady⟩, ?_, ?_⟩
  · rw [hview, if_neg, hk.shown]
    rintro ⟨hdirty, _, rfl, hplace⟩
    exact hk.settled ⟨hdirty, hplace.symm⟩
  · rw [drive_onBay]
    split
    · rw [Bay.dirty_flush]
      exact fun hdirty => Bool.false_ne_true hdirty.1
    · exact hk.settled

/-- Making a buffer ready changes nothing that can be seen. -/
theorem ready (hk : Keeps S n k bytes h) (m : Fin driveCount) :
    Keeps S n k bytes (onBay m Bay.ready h) := by
  obtain ⟨places, hs⟩ := hk.steady
  obtain ⟨hsteady, _, hview, hshell⟩ := hs.ready m
  refine ⟨⟨places, hsteady⟩, (hview n k).trans hk.shown, ?_⟩
  rw [drive_onBay]
  split
  · next heq =>
    subst heq
    obtain ⟨hdirty, hoffset⟩ := Bay.pending_ready (bay h n)
    rw [hdirty, Drive.place, hoffset]
    exact hk.settled
  · exact hk.settled

/-- A move that leaves nothing pending at the sector. -/
theorem move (hk : Keeps S n k bytes h) {m : Fin driveCount} {move : Drive.Move}
    (hsound : ((bay h m).drive.move move).Sound)
    (hsettled : m = n →
      ¬(((bay h m).drive.move move).dirty = true ∧ ((bay h m).drive.move move).place = k)) :
    Keeps S n k bytes (onBay m (Bay.update (Drive.move move)) h) := by
  obtain ⟨places, hs⟩ := hk.steady
  refine ⟨⟨places, hs.move hsound⟩, ?_, ?_⟩
  · rw [view, rack_move]
    exact hk.shown
  · rw [drive_onBay]
    split
    · next heq =>
      subst heq
      exact hsettled rfl
    · exact hk.settled

/-- Every motion but the writing of a byte to the sector. -/
theorem make (hk : Keeps S n k bytes h) {m : Fin driveCount} {motion : Motion}
    (hsound : ((bay h m).make motion).drive.Sound)
    (hspared : motion.takes = true → m = n → (bay h m).drive.place ≠ k) :
    Keeps S n k bytes (onBay m (fun bay => bay.make motion) h) := by
  cases motion with
  | flush => exact hk.flush m
  | ready => exact hk.ready m
  | move move =>
    refine hk.move hsound ?_
    rintro rfl ⟨hdirty, hplace⟩
    -- A drive that has just been given another place has nothing fetched, let alone pending.
    have hfetched := hsound.fetched_of_dirty hdirty
    cases move with
    | stepIn => cases hfetched
    | stepOut => cases hfetched
    | advance => cases hfetched
    | take byte => exact hspared rfl rfl hplace
    | complete => exact hk.settled ⟨hdirty, hplace⟩
    | pass => exact hk.settled ⟨hdirty, hplace⟩
    | obey control => exact hk.settled ⟨hdirty, hplace⟩

/-- Motions that write no byte. -/
theorem follow (hk : Keeps S n k bytes h) {m : Fin driveCount} {motions : List Motion}
    (halong : (bay h m).SoundAlong motions)
    (hspared : ∀ motion ∈ motions, motion.takes = false) :
    Keeps S n k bytes (onBay m (fun bay => bay.follow motions) h) := by
  refine follow_induct (P := Keeps S n k bytes) (fun h motion hmem hk hsound => ?_) halong hk
  refine hk.make hsound fun htakes => ?_
  rw [hspared motion hmem] at htakes
  cases htakes

/-- A written byte that does not go to the sector. -/
theorem write (hk : Keeps S n k bytes h) {m : Fin driveCount} (byte : UInt8)
    (hspared : m = n → (bay h m).drive.place ≠ k) :
    Keeps S n k bytes
      (onBay m (fun bay' => bay'.follow ((bay h m).drive.writeMotions byte)) h) := by
  have halong := Bay.soundAlong_write (hk.sound m) byte
  unfold Drive.writeMotions at halong ⊢
  cases hloaded : (bay h m).drive.isLoaded with
  | false =>
    rw [if_neg (by decide), onBay_of_eq rfl]
    exact hk
  | true =>
    rw [hloaded, if_pos rfl] at halong
    rw [if_pos rfl, onBay_follow_cons]
    have htaken := hk.make halong.1 fun _ => hspared
    refine htaken.follow ?_ ?_
    · rw [bay_onBay_self]
      exact halong.2
    · split <;> simp [Motion.takes]

/-- A command that writes no byte to the sector. -/
theorem obey (hk : Keeps S n k bytes h) {command : Command}
    (hspared : ∀ byte, command = .write byte → h.device.selected = n →
      (bay h n).drive.place ≠ k) :
    Keeps S n k bytes (obey h command).2 := by
  have halong := soundAlong_motions (hk.sound h.device.selected) command
  obtain ⟨_, hsector, hread⟩ := (bay h h.device.selected).drive.takes_motions {}
  rw [obey_eq]
  cases command with
  | select byte =>
    obtain ⟨places, hs⟩ := hk.steady
    exact ⟨⟨places, hs.sound, hs.sane⟩, hk.shown, hk.settled⟩
  | status => exact hk
  | flush => exact flushAll_induct (P := Keeps S n k bytes) (fun m _ hk => hk.flush m) hk
  | function byte => exact hk.follow halong (Drive.takes_motions _ _).1
  | sector => exact hk.follow halong hsector
  | read => exact hk.follow halong hread
  | write byte =>
    refine hk.write byte fun heq => ?_
    rw [heq]
    exact hspared byte rfl heq

end Keeps

/-- Operations that spare the sector at an offset of a drive: they write no byte while the buffer
lies there, and change the media of other drives only, to fresh ones. -/
def Spares (Fresh : M → Prop) (n : Fin driveCount) (offset : Nat) (h : Hosted (Controller M R) W) :
    Operation M → Prop
  | .load drive medium => drive ≠ n.val ∧ Fresh medium
  | .eject drive => drive ≠ n.val
  | .command command => ∀ byte, command = .write byte → h.device.selected = n →
      (bay h n).drive.offset ≠ offset

/-- Runs of operations that each spare the sector when their turn comes. -/
def SparesAlong (Fresh : M → Prop) (n : Fin driveCount) (offset : Nat) :
    Hosted (Controller M R) W → List (Operation M) → Prop
  | _, [] => True
  | h, op :: ops => Spares Fresh n offset h op ∧
      SparesAlong Fresh n offset (perform h op).2 ops

namespace Keeps

variable {S : Sectored M R W} {n : Fin driveCount} {k : Fin diskSectors} {bytes : Sector}
  {h : Hosted (Controller M R) W}

/-- An operation that spares the sector. -/
theorem perform (hk : Keeps S n k bytes h) {op : Operation M}
    (hspares : Spares S.Fresh n (k.val * sectorSize) h op) :
    Keeps S n k bytes (perform h op).2 := by
  obtain ⟨places, hs⟩ := hk.steady
  cases op with
  | load drive medium =>
    rw [perform_load]
    split
    · next hlt =>
      obtain ⟨hsteady, hview⟩ := hs.load ⟨drive, hlt⟩ hspares.2
      have hne : n ≠ ⟨drive, hlt⟩ := fun heq => hspares.1 (congrArg Fin.val heq).symm
      refine ⟨⟨_, hsteady⟩, (hview n k hne).trans hk.shown, ?_⟩
      rw [drive_onBay_of_ne _ _ hne]
      exact hk.settled
    · exact hk
  | eject drive =>
    rw [perform_eject]
    split
    · next hlt =>
      obtain ⟨hsteady, hview⟩ := hs.eject ⟨drive, hlt⟩
      have hne : n ≠ ⟨drive, hlt⟩ := fun heq => hspares (congrArg Fin.val heq).symm
      refine ⟨⟨_, hsteady⟩, (hview n k hne).trans hk.shown, ?_⟩
      rw [drive_onBay_of_ne _ _ hne]
      exact hk.settled
    · exact hk
  | command command =>
    refine hk.obey fun byte hwrite hselected hplace => ?_
    apply hspares byte hwrite hselected
    rw [(hk.sound n).offset_eq, hplace]

/-- A run that spares the sector. -/
theorem after (hk : Keeps S n k bytes h) {ops : List (Operation M)}
    (hspares : SparesAlong S.Fresh n (k.val * sectorSize) h ops) :
    Keeps S n k bytes (after h ops) := by
  induction ops generalizing h with
  | nil => exact hk
  | cons op ops ih => exact ih (hk.perform hspares.1) hspares.2

/-- Commands that write no byte. -/
theorem afterCommands (hk : Keeps S n k bytes h) {commands : List Command}
    (hread : ∀ byte, Command.write byte ∉ commands) :
    Keeps S n k bytes (afterCommands h commands) := by
  refine Run.final_induct (P := Keeps S n k bytes) hk fun h command hmem hk => ?_
  refine hk.obey fun byte hwrite => ?_
  subst hwrite
  exact absurd hmem (hread byte)

end Keeps

end HardSector.Controller
