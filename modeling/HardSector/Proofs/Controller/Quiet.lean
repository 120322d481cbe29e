import HardSector.Medium.InPlace
import HardSector.Proofs.Boot.Finding

/-!
# Controllers that leave what their media share

Only stores and releases take from what the media of a controller share or give back to it;
fetches leave it as it is. So as long as nothing is written, booting and reading sectors do
too, and there is nothing to store when the controller goes.
-/

namespace HardSector

/-- Media whose fetches leave what they share as it is. -/
class Unsharing (M R W : Type) [Medium M R W] : Prop where
  fetch : ∀ (medium : M) (site : Site R W) (offset count : Nat),
    (Medium.fetch medium site offset count).site.shared = site.shared

/-- A fetch looks at patches only. -/
instance {W : Type} : Unsharing CopyOnWrite PatchPool W where
  fetch _ _ _ _ := rfl

/-- Media in place share nothing. -/
instance {H W : Type} [Backing H W] : Unsharing (InPlace H) Unit W where
  fetch _ _ _ _ := rfl

variable {M R W : Type} {shared : R}

namespace Bay

variable {bay : Bay M R W}

/-- Nothing is pending in a bay, and what the media share is as given. -/
structure Quiet (shared : R) (bay : Bay M R W) : Prop where
  clean : bay.drive.dirty = false
  shared_eq : bay.site.shared = shared

namespace Quiet

variable [Medium M R W]

/-- A flush leaves a bay quiet. -/
theorem flush (hq : bay.Quiet shared) : bay.flush.Quiet shared := by
  rw [flush_of_clean hq.clean]
  exact hq

variable [Unsharing M R W]

/-- A fetch leaves a bay quiet, whether it fails or not. -/
theorem ready (hq : bay.Quiet shared) : bay.ready.Quiet shared := by
  refine ⟨bay.pending_ready.1.trans hq.clean, ?_⟩
  cases hmedium : bay.drive.medium with
  | none =>
    rw [ready_of_unloaded (congrArg Option.isSome hmedium)]
    exact hq.shared_eq
  | some medium =>
    cases hfetched : bay.drive.fetched with
    | true =>
      rw [ready_of_fetched hfetched]
      exact hq.shared_eq
    | false =>
      obtain ⟨hshared, _, _⟩ := ready_leaves hmedium hfetched
      rw [hshared, Unsharing.fetch]
      exact hq.shared_eq

/-- Motions that take no byte leave a bay quiet. -/
theorem follow (hq : bay.Quiet shared) {motions : List Motion}
    (htakes : ∀ motion ∈ motions, motion.takes = false) : (bay.follow motions).Quiet shared := by
  refine ⟨clean_follow htakes hq.clean, ?_⟩
  induction motions generalizing bay with
  | nil => exact hq.shared_eq
  | cons motion motions ih =>
    have hmade : (bay.make motion).Quiet shared := by
      cases motion with
      | flush => exact hq.flush
      | ready => exact hq.ready
      | move move =>
        exact ⟨clean_follow (List.forall_mem_singleton.mpr (htakes _ List.mem_cons_self)) hq.clean,
          hq.shared_eq⟩
    exact ih hmade fun motion hmotion => htakes motion (List.mem_cons_of_mem _ hmotion)

end Quiet

end Bay

namespace Controller

variable {h : Hosted (Controller M R) W}

/-- All bays of a controller are quiet. -/
def Quiet (shared : R) (h : Hosted (Controller M R) W) : Prop :=
  ∀ n : Fin driveCount, (bay h n).Quiet shared

namespace Quiet

/-- What the media share is as given. -/
theorem shared_eq (hq : Quiet shared h) : h.device.shared = shared := (hq 0).shared_eq

/-- What leaves one bay quiet leaves the controller quiet. -/
theorem onBay (hq : Quiet shared h) {n : Fin driveCount} {act : Bay M R W → Bay M R W}
    (hact : (act (bay h n)).Quiet shared) : Quiet shared (onBay n act h) := by
  intro m
  by_cases hm : m = n
  · subst hm
    rw [bay_onBay_self]
    exact hact
  · refine ⟨?_, hact.shared_eq⟩
    rw [drive_onBay_of_ne act h hm]
    exact (hq m).clean

variable [Medium M R W]

/-- Nothing changes when a quiet drive is flushed. -/
theorem onBay_flush (hq : Quiet shared h) (n : Fin driveCount) :
    HardSector.Controller.onBay n Bay.flush h = h :=
  onBay_of_eq (Bay.flush_of_clean (hq n).clean)

/-- There is nothing to flush in a quiet controller. -/
theorem flushAll (hq : Quiet shared h) : Quiet shared (flushAll h) :=
  flushAll_induct (fun n _ hq' => hq'.onBay (hq' n).flush) hq

variable [Unsharing M R W]

/-- Every command but a written byte leaves a controller quiet. -/
theorem obey (hq : Quiet shared h) {command : Command} (hwrite : ∀ byte, command ≠ .write byte) :
    Quiet shared (obey h command).2 := by
  rw [obey_eq]
  cases command with
  | select byte => exact hq
  | status => exact hq
  | function byte =>
    exact hq.onBay ((hq _).follow (Drive.takes_motions _ (Control.ofByte byte)).1)
  | sector => exact hq.onBay ((hq _).follow (Drive.takes_motions _ {}).2.1)
  | read => exact hq.onBay ((hq _).follow (Drive.takes_motions _ {}).2.2)
  | write byte => exact absurd rfl (hwrite byte)
  | flush => exact hq.flushAll

/-- A boot and the reading of a sector leave a controller in use quiet. -/
theorem spares (shared : R) (r : Boot.Registers) :
    Boot.Spares r fun h : Hosted (Controller M R) W =>
      Located r h.device ∧ Used W h.device ∧ Quiet shared h where
  read {h} hh register := by
    obtain ⟨hl, hused, hq⟩ := hh
    have hquiet : Quiet shared (readAddress h (r.address register)).2 := by
      rw [readAddress_eq, hl.ofDistance?_sub]
      cases register with
      | status => exact hq.obey nofun
      | sector => exact hq.obey nofun
      | data => exact hq.obey nofun
    exact ⟨hl.congr (base_readAddress ..), hused.readAddress _, hquiet⟩
  write {h} hh register hdata byte := by
    obtain ⟨hl, hused, hq⟩ := hh
    have hquiet : Quiet shared (writeAddress h (r.address register) byte).2 := by
      rw [writeAddress_eq, hl.ofDistance?_sub]
      cases register with
      | status => exact hq.obey nofun
      | sector => exact hq.obey nofun
      | data => exact absurd rfl hdata
    exact ⟨hl.congr (base_writeAddress ..), hused.writeAddress _ byte, hquiet⟩

end Quiet

end Controller

end HardSector
