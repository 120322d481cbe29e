import HardSector.Proofs.Controller.Operation
import HardSector.Proofs.Medium.Recorded

/-!
# Recorded runs

Every run of a controller can be made with labelled media in a host that records their
calls: each medium gets the turn of its load for a label. With the labels and the record
taken away, the recorded run is the run itself.
-/

namespace HardSector

/-- An operation at a turn of a run, with the turn for the label of a medium. -/
def Operation.labelled {M : Type} (turn : Nat) : Operation M → Operation (Labelled M)
  | .load drive medium => .load drive ⟨⟨drive, turn⟩, medium⟩
  | .eject drive => .eject drive
  | .command obeyed => .command obeyed

/-- The operations of a run, from a turn on, with labelled media. -/
def labelledFrom {M : Type} (turn : Nat) : List (Operation M) → List (Operation (Labelled M))
  | [] => []
  | op :: ops => op.labelled turn :: labelledFrom (turn + 1) ops

/-- The motions of a command do not depend on the label of a medium. -/
theorem Command.motions_plain {M : Type} (drive : Drive (Labelled M)) (command : Command) :
    command.motions drive.plain = command.motions drive := by
  have hloaded := drive.isLoaded_plain
  cases command <;>
    simp only [Command.motions, Drive.functionMotions, Drive.sectorMotions, Drive.writeMotions,
      Drive.readMotions, hloaded] <;> rfl

namespace Controller

variable {M R W : Type}

/-- A controller of labelled media in a recording host. -/
abbrev Recording (M R W : Type) : Type := Hosted (Controller (Labelled M) R) (Recorded W)

/-- A controller without the labels and the record. -/
def plain (h : Recording M R W) : Hosted (Controller M R) W :=
  ⟨⟨h.device.drives.map Drive.plain, h.device.selected, h.device.shared, h.device.base⟩,
    h.host.host, h.notices⟩

/-- The bays of a controller without the record are its bays without it. -/
theorem bay_plain (h : Recording M R W) (n : Fin driveCount) :
    bay (plain h) n = (bay h n).plain := by
  simp [bay, plain, Bay.plain, Site.plain]

/-- What goes in a bay without the record as with it does so in the controller. -/
theorem plain_onBay (act : Bay (Labelled M) R (Recorded W) → Bay (Labelled M) R (Recorded W))
    (act' : Bay M R W → Bay M R W) {h : Recording M R W} {n : Fin driveCount}
    (hact : (act (bay h n)).plain = act' (bay h n).plain) :
    plain (onBay n act h) = onBay n act' (plain h) := by
  unfold onBay
  rw [bay_plain, ← hact]
  simp only [plain, Bay.plain, Site.plain, Vector.map_set]

/-- The selected drive of a controller without the record. -/
theorem selectedDrive_plain (h : Recording M R W) :
    (plain h).device.selectedDrive = h.device.selectedDrive.plain := by
  simp [plain, selectedDrive]

/-- A new controller with an empty record. -/
theorem plain_fresh (shared : R) (base : UInt16) (host : W) :
    plain (fresh shared base ⟨host, []⟩ : Recording M R W) = fresh shared base host := by
  have hdrives : ((ofShared shared base : Controller (Labelled M) R).drives.map Drive.plain) =
      (ofShared shared base : Controller M R).drives := by
    simp only [ofShared, Vector.map_ofFn]
    rfl
  simp only [plain, fresh, hdrives]
  rfl

/-- The stores to the media of a drive that were recorded between two states. -/
def storesBetween (n : Fin driveCount) (h h' : Recording M R W) : List MediumCall :=
  (h'.host.calls.drop h.host.calls.length).filter (MediumCall.storesTo n)

/-- The stores among the calls that were added to a record. -/
theorem storesBetween_eq {h h' : Recording M R W} {calls : List MediumCall}
    (hcalls : h'.host.calls = h.host.calls ++ calls) (n : Fin driveCount) :
    storesBetween n h h' = calls.filter (MediumCall.storesTo n) := by
  rw [storesBetween, hcalls, List.drop_left]

variable [Medium M R W]

/-- Flushing all drives goes without the record as with it. -/
theorem plain_flushAll (h : Recording M R W) : plain (flushAll h) = flushAll (plain h) := by
  unfold flushAll
  generalize List.finRange driveCount = order
  induction order generalizing h with
  | nil => rfl
  | cons n order ih =>
    rw [List.foldl_cons, List.foldl_cons, ih]
    congr 1
    exact plain_onBay _ _ (bay h n).flush_recorded.1

/-- A command goes without the record as with it. -/
theorem plain_obey (h : Recording M R W) (command : Command) :
    plain (obey h command).2 = (obey (plain h) command).2 := by
  have hfollow : plain (onBay h.device.selected
      (fun bay => bay.follow (command.motions h.device.selectedDrive)) h) =
      onBay (plain h).device.selected
        (fun bay => bay.follow (command.motions (plain h).device.selectedDrive)) (plain h) := by
    rw [selectedDrive_plain, Command.motions_plain]
    exact plain_onBay _ _ (Bay.plain_follow _ _)
  rw [obey_eq, obey_eq]
  cases command with
  | select byte => rfl
  | status => rfl
  | flush => exact plain_flushAll h
  | _ => exact hfollow

/-- An operation goes without labels and record as with them. -/
theorem plain_perform (h : Recording M R W) (turn : Nat) (op : Operation M) :
    plain (perform h (op.labelled turn)).2 = (perform (plain h) op).2 := by
  cases op with
  | load drive medium =>
    rw [Operation.labelled, perform_load, perform_load]
    split
    · next hlt =>
      exact plain_onBay (fun bay => bay.load ⟨⟨drive, turn⟩, medium⟩)
        (fun bay => bay.load medium) (Bay.plain_load (bay h ⟨drive, hlt⟩) _)
    · rfl
  | eject drive =>
    rw [Operation.labelled, perform_eject, perform_eject]
    split
    · next hlt =>
      exact plain_onBay (fun bay => bay.eject.2) (fun bay => bay.eject.2)
        (congrArg Prod.snd (Bay.plain_eject (bay h ⟨drive, hlt⟩)))
    · rfl
  | command command => exact plain_obey h command

/-- With labels and record taken away, the recorded run is the run itself. -/
theorem plain_after (h : Recording M R W) (turn : Nat) (ops : List (Operation M)) :
    plain (after h (labelledFrom turn ops)) = after (plain h) ops := by
  induction ops generalizing h turn with
  | nil => rfl
  | cons op ops ih =>
    rw [labelledFrom, after, Run.final_cons, ih, plain_perform]
    rfl

end Controller

end HardSector
