import HardSector.Proofs.Controller.Operation
import Mathlib.Data.List.Induction

/-!
# Which medium is in a drive

A medium changes while it is used, but some of what can be told of it never does: the image
of a copy-on-write medium, for example, or the path of a file. Such a trait of the medium
in a drive is that of the medium which the operator put there last.
-/

namespace HardSector

/-- What can be told of a medium and is kept by whatever is done to it. -/
structure Trait {M α : Type} (f : M → α) (R W : Type) [Medium M R W] : Prop where
  fetch : ∀ (medium : M) (site : Site R W) (offset count : Nat),
    f (Medium.fetch medium site offset count).medium = f medium
  store : ∀ (medium : M) (site : Site R W) (offset : Nat) (data : Bytes),
    f (Medium.store medium site offset data).medium = f medium
  release : ∀ (medium : M) (site : Site R W), f (Medium.release medium site).1 = f medium

section Trait

variable {M R W α : Type} [Medium M R W] {f : M → α}

namespace Bay

variable (bay : Bay M R W)

/-- A flush keeps a trait of the medium. -/
theorem trait_flush (hf : Trait f R W) :
    bay.flush.drive.medium.map f = bay.drive.medium.map f := by
  rw [flush_eq]
  split
  · cases hmedium : bay.drive.medium with
    | none =>
      rw [storeSector_of_none hmedium]
      exact congrArg (Option.map f) hmedium
    | some medium =>
      have hstored : (bay.storeSector.update Drive.settled).drive.medium = _ :=
        (storeSector_leaves hmedium).1
      rw [hstored]
      exact congrArg some (hf.store ..)
  · rfl

/-- Making the buffer ready keeps a trait of the medium. -/
theorem trait_ready (hf : Trait f R W) :
    bay.ready.drive.medium.map f = bay.drive.medium.map f := by
  cases hmedium : bay.drive.medium with
  | none =>
    have hempty : bay.drive.isLoaded = false := congrArg Option.isSome hmedium
    rw [ready_of_unloaded hempty, hmedium]
  | some medium =>
    cases hfetched : bay.drive.fetched with
    | true => rw [ready_of_fetched hfetched, hmedium]
    | false =>
      rw [(ready_leaves hmedium hfetched).2.2]
      exact congrArg some (hf.fetch ..)

/-- Motions keep a trait of the medium. -/
theorem trait_follow (hf : Trait f R W) (motions : List Motion) :
    (bay.follow motions).drive.medium.map f = bay.drive.medium.map f := by
  induction motions generalizing bay with
  | nil => rfl
  | cons motion motions ih =>
    rw [follow_cons, ih]
    cases motion with
    | flush => exact bay.trait_flush hf
    | ready => exact bay.trait_ready hf
    | move move => exact congrArg (Option.map f) (bay.drive.medium_move move)

/-- The medium that comes out of a drive has the traits of the one in it. -/
theorem trait_eject (hf : Trait f R W) : bay.eject.1.map f = bay.drive.medium.map f := by
  rw [eject_eq, Option.map_map, ← bay.trait_flush hf]
  exact congrArg (fun g => bay.flush.drive.medium.map g)
    (funext fun medium => hf.release medium bay.flush.site)

end Bay

/-- What is in a drive after an operation, if its medium is put there or taken out only. -/
def Operation.seat (n : Fin driveCount) (seated : Option M) : Operation M → Option M
  | .load drive medium => if drive = n then some medium else seated
  | .eject drive => if drive = n then none else seated
  | .command _ => seated

/-- The medium that the operator put into a drive last, unless it was taken out again. -/
def occupant (n : Fin driveCount) (ops : List (Operation M)) : Option M :=
  ops.foldl (Operation.seat n) none

/-- The last operation decides, where it changes the medium of the drive. -/
theorem occupant_snoc (n : Fin driveCount) (ops : List (Operation M)) (op : Operation M) :
    occupant n (ops ++ [op]) = op.seat n (occupant n ops) := by
  unfold occupant
  rw [List.foldl_append]
  rfl

/-- What is in a drive was put there. -/
theorem load_mem_of_occupant {n : Fin driveCount} {ops : List (Operation M)} {medium : M}
    (hseated : occupant n ops = some medium) : .load n.val medium ∈ ops := by
  induction ops using List.reverseRecOn with
  | nil => cases hseated
  | append_singleton ops op ih =>
    have hearlier : occupant n ops = some medium → .load n.val medium ∈ ops ++ [op] :=
      fun hseated => List.mem_append_left _ (ih hseated)
    rw [occupant_snoc] at hseated
    cases op with
    | load drive loaded =>
      unfold Operation.seat at hseated
      dsimp only at hseated
      split at hseated
      · next heq =>
        rw [heq, Option.some.inj hseated]
        exact List.mem_append_right _ List.mem_cons_self
      · exact hearlier hseated
    | eject drive =>
      unfold Operation.seat at hseated
      dsimp only at hseated
      split at hseated
      · cases hseated
      · exact hearlier hseated
    | command command => exact hearlier hseated

/-- Media with the same traits are not told apart when an operation leaves them in their drive. -/
theorem Operation.seat_congr (op : Operation M) (n : Fin driveCount) {seated seated' : Option M}
    (hmap : seated.map f = seated'.map f) :
    (op.seat n seated).map f = (op.seat n seated').map f := by
  unfold seat
  cases op with
  | load drive medium =>
    dsimp only
    split
    · rfl
    · exact hmap
  | eject drive =>
    dsimp only
    split
    · rfl
    · exact hmap
  | command command => exact hmap

namespace Controller

omit [Medium M R W] in
/-- What keeps a trait of the medium in a bay keeps it in all drives. -/
theorem trait_onBay (h : Hosted (Controller M R) W) {m : Fin driveCount}
    {act : Bay M R W → Bay M R W}
    (hact : ∀ bay : Bay M R W, (act bay).drive.medium.map f = bay.drive.medium.map f)
    (n : Fin driveCount) :
    (bay (onBay m act h) n).drive.medium.map f = (bay h n).drive.medium.map f := by
  rw [drive_onBay]
  split
  · next heq => rw [heq, hact]
  · rfl

/-- A command keeps a trait of the media in the drives. -/
theorem trait_obey (hf : Trait f R W) (h : Hosted (Controller M R) W) (command : Command)
    (n : Fin driveCount) :
    (bay (obey h command).2 n).drive.medium.map f = (bay h n).drive.medium.map f := by
  rw [obey_eq]
  cases command with
  | select byte => rfl
  | status => rfl
  | flush =>
    refine flushAll_induct (P := fun h' => (bay h' n).drive.medium.map f =
      (bay h n).drive.medium.map f) (fun m h' heq => ?_) rfl
    exact (trait_onBay h' (fun bay => bay.trait_flush hf) n).trans heq
  | _ => exact trait_onBay h (fun bay => bay.trait_follow hf _) n

/-- An operation changes the traits of the media in the drives only by putting media there or taking
them out. -/
theorem trait_perform (hf : Trait f R W) (h : Hosted (Controller M R) W) (op : Operation M)
    (n : Fin driveCount) :
    (bay (perform h op).2 n).drive.medium.map f =
      (op.seat n (bay h n).drive.medium).map f := by
  cases op with
  | load drive medium =>
    rw [drive_perform_load, Operation.seat]
    split <;> rfl
  | eject drive =>
    rw [drive_perform_eject, Operation.seat]
    split <;> rfl
  | command command => exact trait_obey hf h command n

/-- After every run, a trait of the medium in a drive is that of the medium which was put there. -/
theorem trait_after (hf : Trait f R W) (shared : R) (base : UInt16) (host : W)
    (ops : List (Operation M)) (n : Fin driveCount) :
    (bay (after (fresh shared base host) ops) n).drive.medium.map f =
      (occupant n ops).map f := by
  induction ops using List.reverseRecOn with
  | nil =>
    simp [bay, fresh, ofShared, occupant]
  | append_singleton ops op ih =>
    rw [after, Run.final_append, occupant_snoc]
    exact (trait_perform hf _ op n).trans (op.seat_congr n ih)

end Controller

end Trait

end HardSector
