import HardSector.Proofs.Controller.Steady
import HardSector.Proofs.Medium.CopyOnWrite

/-!
# Drives do not disturb each other

The drives of a controller share a resource, but what is done to one of them changes
neither another drive nor any sector that the medium in it shows, even when the resource
runs out or is given back on the way.
-/

namespace HardSector.Controller

variable {M R W : Type} [Medium M R W]

/-- Operations on one drive: commands while it is selected, and changes of its medium to fresh
ones. Selecting a drive is no operation on any. -/
def ActsOn (Fresh : M → Prop) (n : Fin driveCount) (h : Hosted (Controller M R) W) :
    Operation M → Prop
  | .load drive medium => drive = n.val ∧ Fresh medium
  | .eject drive => drive = n.val
  | .command (.select _) => True
  | .command .flush => False
  | .command _ => h.device.selected = n

/-- Runs of operations that each act on the drive when their turn comes. -/
def ActsOnAlong (Fresh : M → Prop) (n : Fin driveCount) :
    Hosted (Controller M R) W → List (Operation M) → Prop
  | _, [] => True
  | h, op :: ops => ActsOn Fresh n h op ∧ ActsOnAlong Fresh n (perform h op).2 ops

/-- A steady controller in which a drive, and every sector that its medium shows, are as they once
were. -/
structure Undisturbed (S : Sectored M R W) (m : Fin driveCount) (h₀ h : Hosted (Controller M R) W) :
    Prop where
  steady : ∃ places, Steady S places h
  drive_eq : (bay h m).drive = (bay h₀ m).drive
  view_eq : ∀ k, view S h m k = view S h₀ m k

namespace Undisturbed

variable {S : Sectored M R W} {n m : Fin driveCount} {h₀ h : Hosted (Controller M R) W}

/-- A motion of another drive. -/
theorem make (hu : Undisturbed S m h₀ h) (hne : m ≠ n) {motion : Motion}
    (hsound : ((bay h n).make motion).drive.Sound) :
    Undisturbed S m h₀ (onBay n (fun bay => bay.make motion) h) := by
  obtain ⟨places, hs⟩ := hu.steady
  refine ⟨⟨_, hs.make hsound⟩, (drive_onBay_of_ne _ _ hne).trans hu.drive_eq, fun k => ?_⟩
  refine Eq.trans ?_ (hu.view_eq k)
  cases motion with
  | flush =>
    obtain ⟨kept, _, _, _, hview⟩ := hs.flush n
    exact (hview m k).trans (if_neg fun hstored => hne hstored.2.2.1)
  | ready => exact (hs.ready n).2.2.1 m k
  | move move => exact congrArg (fun rack => rack.view S.sector m k) (rack_move n move h)

/-- An operation on another drive. -/
theorem perform (hu : Undisturbed S m h₀ h) (hne : m ≠ n) {op : Operation M}
    (hacts : ActsOn S.Fresh n h op) : Undisturbed S m h₀ (perform h op).2 := by
  obtain ⟨places, hs⟩ := hu.steady
  cases op with
  | load drive medium =>
    obtain ⟨rfl, hfresh⟩ := hacts
    rw [perform_load, dif_pos n.isLt]
    obtain ⟨hsteady, hview⟩ := hs.load n hfresh
    exact ⟨⟨_, hsteady⟩, (drive_onBay_of_ne _ _ hne).trans hu.drive_eq,
      fun k => (hview m k hne).trans (hu.view_eq k)⟩
  | eject drive =>
    obtain rfl : drive = n.val := hacts
    rw [perform_eject, dif_pos n.isLt]
    obtain ⟨hsteady, hview⟩ := hs.eject n
    exact ⟨⟨_, hsteady⟩, (drive_onBay_of_ne _ _ hne).trans hu.drive_eq,
      fun k => (hview m k hne).trans (hu.view_eq k)⟩
  | command command =>
    have halong := soundAlong_motions (hs.sound h.device.selected) command
    have hfollow : h.device.selected = n → Undisturbed S m h₀ (HardSector.Controller.onBay
        h.device.selected (fun bay => bay.follow (command.motions h.device.selectedDrive)) h) := by
      rintro rfl
      exact follow_induct (P := Undisturbed S m h₀) (fun h _ _ hu => hu.make hne) halong hu
    change Undisturbed S m h₀ (obey h command).2
    rw [obey_eq]
    cases command with
    | select byte => exact ⟨⟨places, hs.sound, hs.sane⟩, hu.drive_eq, hu.view_eq⟩
    | status => exact hu
    | flush => exact hacts.elim
    | _ => exact hfollow hacts

/-- A run of operations on another drive. -/
theorem after (hu : Undisturbed S m h₀ h) (hne : m ≠ n) {ops : List (Operation M)}
    (hacts : ActsOnAlong S.Fresh n h ops) : Undisturbed S m h₀ (after h ops) := by
  induction ops generalizing h with
  | nil => exact hu
  | cons op ops ih => exact ih (hu.perform hne hacts.1) hacts.2

end Undisturbed

/-- Drives with copy-on-write media are isolated although they share a pool. Whatever is done to one
drive alone, with or without room in the pool, another drive is left as it was in every respect, and
every sector of its medium shows the same bytes: those of its patch, or else of its image, with
zeros past the end. A medium cannot be put into or taken out of a drive that does not exist, and
trying changes nothing. -/
theorem other_drives_undisturbed {W : Type} (capacity : Nat) (base : UInt16) (host : W)
    (past later : List (Operation CopyOnWrite)) (n m : Fin driveCount) :
    let start := after (fresh (M := CopyOnWrite) (PatchPool.ofCapacity capacity) base host) past
    let last := after start later
    (∀ drive medium, .load drive medium ∈ past → medium.patches = .empty) →
    (m ≠ n → ActsOnAlong (fun medium => medium.patches = .empty) n start later →
      (bay last m).drive = (bay start m).drive ∧
      ∀ disk, (bay start m).drive.medium = some disk → ∀ k < 2464,
        (last.device.shared.patch disk.patches (UInt16.ofNat k)).getD
            (disk.image.padded (k * 137) 137) =
          (start.device.shared.patch disk.patches (UInt16.ofNat k)).getD
            (disk.image.padded (k * 137) 137)) ∧
    ∀ drive, 4 ≤ drive →
      (∀ medium, perform start (.load drive medium) = (.refused (.invalidDrive drive), start)) ∧
      perform start (.eject drive) = (.refused (.invalidDrive drive), start) := by
  intro start last hfresh
  let S : Sectored CopyOnWrite PatchPool W :=
    CopyOnWrite.sectored (min capacity PatchPool.capacityLimit)
  refine ⟨fun hne hacts => ?_, fun drive hdrive => ?_⟩
  · have hsteady := (Steady.start (S := S) base
      (CopyOnWrite.Patched.start capacity host nofun)).after hfresh
    have hu : Undisturbed S m start last :=
      Undisturbed.after ⟨hsteady, rfl, fun _ => rfl⟩ hne hacts
    refine ⟨hu.drive_eq, fun disk hdisk k hk => ?_⟩
    have hview := hu.view_eq ⟨k, hk⟩
    have hmedia : (rack start).media m = some disk := hdisk
    have hmedia' : (rack last).media m = some disk :=
      (congrArg Drive.medium hu.drive_eq).trans hdisk
    rw [view, view, Rack.view, Rack.view, hmedia, hmedia'] at hview
    exact Option.some.inj hview
  · have hout : ¬drive < driveCount := Nat.not_lt.mpr hdrive
    refine ⟨fun medium => ?_, ?_⟩
    · rw [perform_load, dif_neg hout]
    · rw [perform_eject, dif_neg hout]

/-- A drive with one patch, in a pool of one slot, while a write to another drive is dropped and the
media of that drive come and go. -/
theorem other_drives_undisturbed_by_a_full_pool :
    let past : List (Operation CopyOnWrite) :=
      [.load 0 { image := #[1, 2, 3] }, .load 1 { image := #[4] }, .command (.select 1),
        .command .sector, .command (.write 7), .command .flush]
    let later : List (Operation CopyOnWrite) :=
      [.command (.select 0), .command .sector, .command (.write 9), .command .sector,
        .load 0 { image := #[5] }, .eject 0]
    let start := after (fresh (W := Unit) (PatchPool.ofCapacity 1) 8 ()) past
    let last := after start later
    last.device.shared.droppedWrites = 1 ∧ (bay last 1).drive = (bay start 1).drive ∧
      (∀ disk, (bay start 1).drive.medium = some disk → ∀ k < 2464,
        (last.device.shared.patch disk.patches (UInt16.ofNat k)).getD
            (disk.image.padded (k * 137) 137) =
          (start.device.shared.patch disk.patches (UInt16.ofNat k)).getD
            (disk.image.padded (k * 137) 137)) ∧
      perform start (.eject 4) = (.refused (.invalidDrive 4), start) := by
  intro past later
  have hfresh : ∀ drive medium, .load drive medium ∈ past → medium.patches = .empty := by
    intro drive medium hload
    have hmedium : medium = { image := #[1, 2, 3] } ∨ medium = { image := #[4] } := by
      simp only [past, List.mem_cons, Operation.load.injEq, reduceCtorEq, List.not_mem_nil] at hload
      tauto
    rcases hmedium with rfl | rfl <;> rfl
  obtain ⟨hapart, hrefused⟩ := other_drives_undisturbed 1 8 () past later 0 1 hfresh
  obtain ⟨hdrive, hshown⟩ := hapart (by decide)
    ⟨trivial, rfl, rfl, rfl, ⟨rfl, rfl⟩, rfl, trivial⟩
  exact ⟨by decide +kernel, hdrive, hshown, (hrefused 4 (by decide)).2⟩

end HardSector.Controller
