import HardSector.Proofs.Controller.Occupant
import HardSector.Proofs.Controller.Steady
import HardSector.Proofs.Medium.CopyOnWrite

/-!
# Slots are given back

The media in the drives of a controller hold all slots of the pool that are in use. A medium
that leaves its drive gives back all that it held, also the one that its pending sector has
taken a moment before, and shows its image again.
-/

namespace HardSector

namespace CopyOnWrite

/-- A medium without its patches. -/
def bare (disk : CopyOnWrite) : CopyOnWrite := { disk with patches := .empty }

/-- Whatever is done to a medium, it stays the same but for its patches. -/
theorem trait_bare {W : Type} : Trait bare PatchPool W :=
  ⟨fun _ _ _ _ => rfl, fun _ _ _ _ => rfl, fun _ _ => rfl⟩

/-- A medium without patches reads as its image, whatever is in the pool. -/
theorem fetch_of_empty {W : Type} {disk : CopyOnWrite} (hempty : disk.patches = .empty)
    (site : Site PatchPool W) (offset count : Nat) :
    Medium.fetch disk site offset count =
      ⟨disk.image.extract offset (offset + count),
        .ok (disk.image.extract offset (offset + count)).size, disk, site⟩ := by
  have hlook : disk.look site.shared offset count =
      (disk.image.extract offset (offset + count),
        (disk.image.extract offset (offset + count)).size) := by
    unfold look
    rw [hempty, PatchPool.patch_empty]
    rfl
  simp only [Medium.fetch, hlook]

end CopyOnWrite

namespace Bay

variable {M R W : Type} [Medium M R W]

/-- A medium that is put into a loaded drive finds there what it would find had the drive been
emptied first. -/
theorem load_eject (bay : Bay M R W) (medium : M) :
    bay.eject.2.load medium = bay.load medium := by
  have hclean : bay.eject.2.flush = bay.eject.2 := by
    apply flush_of_clean
    rw [drive_eject]
  have hvacant : bay.eject.2.vacate = bay.eject.2 := by
    unfold vacate
    rw [drive_eject]
    have hdrive := bay.drive_eject
    generalize bay.eject.2 = empty at hdrive ⊢
    obtain ⟨drive, site⟩ := empty
    obtain rfl := hdrive
    rfl
  rw [load_eq, hclean, hvacant, eject_eq, load_eq]

end Bay

namespace Controller

variable {W : Type}

/-- How many slots the medium in a drive holds. -/
def slotsHeld (h : Hosted (Controller CopyOnWrite PatchPool) W) (n : Fin driveCount) : Nat :=
  (bay h n).drive.medium.elim 0 fun disk => disk.patches.size

/-- Whenever a controller is steady, the slots in use are those that the media in its drives hold,
and there are not more of them than the pool has. -/
theorem Steady.used_eq {capacity : Nat} {places : Finset Place}
    {h : Hosted (Controller CopyOnWrite PatchPool) W}
    (hs : Steady (CopyOnWrite.sectored capacity) places h) :
    h.device.shared.used = ∑ n, slotsHeld h n ∧ h.device.shared.used ≤ capacity ∧
      h.device.shared.capacity = capacity := by
  obtain ⟨chains, harena⟩ := hs.sane.arena
  have hcapacity : h.device.shared.capacity = capacity := hs.sane.capacity_eq
  refine ⟨?_, hcapacity ▸ harena.used_le, hcapacity⟩
  refine harena.used_eq_sum.trans (Finset.sum_congr rfl fun n _ => ?_)
  have hmedium : (rack h).media n = (bay h n).drive.medium := rfl
  unfold slotsHeld CopyOnWrite.tables
  rw [hmedium]
  cases (bay h n).drive.medium <;> rfl

/-- A drive that loses its medium holds no slots; the other drives hold what they held. -/
theorem sum_slotsHeld_eject (h : Hosted (Controller CopyOnWrite PatchPool) W)
    (n : Fin driveCount) :
    ∑ m, slotsHeld (onBay n (fun bay => bay.eject.2) h) m =
      ∑ m ∈ Finset.univ.erase n, slotsHeld h m := by
  have hgone : slotsHeld (onBay n (fun bay => bay.eject.2) h) n = 0 := by
    unfold slotsHeld
    rw [bay_onBay_self, Bay.drive_eject]
    rfl
  rw [← Finset.sum_erase Finset.univ hgone]
  refine Finset.sum_congr rfl fun m hm => ?_
  unfold slotsHeld
  rw [drive_onBay_of_ne _ _ (Finset.ne_of_mem_erase hm)]

/-- What comes out of a drive is what was put there, without its patches. -/
theorem eject_eq_occupant (pool : PatchPool) (base : UInt16) (host : W)
    (ops : List (Operation CopyOnWrite)) (n : Fin driveCount) :
    (bay (after (fresh pool base host) ops) n).eject.1 = (occupant n ops).map CopyOnWrite.bare := by
  have hbare (bay : Bay CopyOnWrite PatchPool W) :
      bay.eject.1 = bay.eject.1.map CopyOnWrite.bare := by
    rw [Bay.eject_eq, Option.map_map]
    rfl
  rw [hbare, Bay.trait_eject _ CopyOnWrite.trait_bare, trait_after CopyOnWrite.trait_bare]

/-- If only media without patches are put into the drives of a controller, then after every run the
slots in use are those that the media in the drives hold, of a number of slots that never changes,
and none are in use when all drives are empty. What comes out of a drive then is the medium that was
put there, without patches, so that it reads as its image wherever it is put next; and what stays in
use are the slots of the other drives. A medium that is replaced leaves the controller as if it had
been taken out first. -/
theorem slots_given_back (capacity : Nat) (base : UInt16) (host : W)
    (ops : List (Operation CopyOnWrite)) :
    let h := after (fresh (PatchPool.ofCapacity capacity) base host) ops
    (∀ drive medium, .load drive medium ∈ ops → medium.patches = .empty) →
      h.device.shared.used = ∑ n, slotsHeld h n ∧
      h.device.shared.used ≤ h.device.shared.capacity ∧
      h.device.shared.capacity = min capacity 65535 ∧
      ((∀ n, (bay h n).drive.isLoaded = false) → h.device.shared.used = 0) ∧
      ∀ n : Fin driveCount,
        (perform h (.eject n)).1 = .ejected (occupant n ops) ∧
        (perform h (.eject n)).2.device.shared.used =
          ∑ m ∈ Finset.univ.erase n, slotsHeld h m ∧
        (∀ disk, occupant n ops = some disk → disk.patches = .empty ∧
          ∀ (site : Site PatchPool W) (offset count : Nat),
            Medium.fetch disk site offset count =
              ⟨disk.image.extract offset (offset + count),
                .ok (disk.image.extract offset (offset + count)).size, disk, site⟩) ∧
        ∀ medium,
          perform h (.load n medium) = perform (perform h (.eject n)).2 (.load n medium) ∧
          (perform h (.load n medium)).2.device.shared =
            (perform h (.eject n)).2.device.shared := by
  intro h hfresh
  obtain ⟨places, hs⟩ := (Steady.start (S := CopyOnWrite.sectored (min capacity 65535)) base
    (CopyOnWrite.Patched.start capacity host nofun)).after hfresh
  obtain ⟨hused, hle, hcapacity⟩ := hs.used_eq
  refine ⟨hused, hcapacity ▸ hle, hcapacity, fun hempty => ?_, fun n => ?_⟩
  · rw [hused]
    refine Finset.sum_eq_zero fun n _ => ?_
    have hnone : (bay h n).drive.medium = none := by
      simpa only [Drive.isLoaded, Option.isSome_eq_false_iff, Option.isNone_iff_eq_none]
        using hempty n
    unfold slotsHeld
    rw [hnone]
    rfl
  have hseated : ∀ disk, occupant n ops = some disk → disk.patches = .empty :=
    fun disk hseated => hfresh n disk (load_mem_of_occupant hseated)
  have heject : perform h (.eject n) =
      (.ejected (bay h n).eject.1, onBay n (fun bay => bay.eject.2) h) := by
    rw [perform_eject, dif_pos n.isLt]
  have hload : ∀ medium, perform h (.load n medium) =
      (.loaded, onBay n (fun bay => bay.load medium) h) := by
    intro medium
    rw [perform_load, dif_pos n.isLt]
  refine ⟨?_, ?_, fun disk hdisk => ⟨hseated disk hdisk, ?_⟩, fun medium => ⟨?_, ?_⟩⟩
  · have hout : (bay h n).eject.1 = occupant n ops := by
      refine (eject_eq_occupant _ base host ops n).trans ?_
      cases hoccupant : occupant n ops with
      | none => rfl
      | some disk =>
        rw [Option.map_some, CopyOnWrite.bare, ← hseated disk hoccupant]
    rw [heject, hout]
  · rw [heject]
    exact (hs.eject n).1.used_eq.1.trans (sum_slotsHeld_eject h n)
  · exact CopyOnWrite.fetch_of_empty (hseated disk hdisk)
  · rw [hload, heject, perform_load, dif_pos n.isLt, ← onBay_comp]
    simp only [Bay.load_eject]
  · rw [hload, heject, shared_onBay, shared_onBay, Bay.load_eq, Bay.eject_eq, Bay.site_update]

/-- A medium that holds the only slot of an exhausted pool is ejected with a sector pending, while
another drive has one pending as well. -/
theorem slots_given_back_by_an_exhausted_pool :
    let ops : List (Operation CopyOnWrite) :=
      [.load 0 { image := #[1, 2, 3] }, .load 1 { image := #[4] }, .command (.select 1),
        .command .sector, .command (.write 7), .command .sector, .command (.write 8),
        .command (.select 0), .command .sector, .command (.write 9), .command .sector,
        .command (.write 5)]
    let h := after (fresh (W := Unit) (PatchPool.ofCapacity 1) 8 ()) ops
    h.device.shared.exhausted = true ∧ (bay h 0).drive.dirty = true ∧
      (bay h 1).drive.dirty = true ∧ h.device.shared.used = ∑ n, slotsHeld h n ∧
      slotsHeld h 1 = 1 ∧ (perform h (.eject 1)).1 = .ejected (some { image := #[4] }) ∧
      (perform h (.eject 1)).2.device.shared.used = ∑ m ∈ Finset.univ.erase 1, slotsHeld h m := by
  intro ops h
  have hfresh : ∀ drive medium, .load drive medium ∈ ops → medium.patches = .empty := by
    intro drive medium hload
    have hmedium : medium = { image := #[1, 2, 3] } ∨ medium = { image := #[4] } := by
      simp only [ops, List.mem_cons, Operation.load.injEq, reduceCtorEq, List.not_mem_nil] at hload
      tauto
    rcases hmedium with rfl | rfl <;> rfl
  obtain ⟨hused, -, -, -, hdrives⟩ := slots_given_back 1 8 () ops hfresh
  obtain ⟨houtcome, hleft, -⟩ := hdrives 1
  exact ⟨by decide +kernel, by decide +kernel, by decide +kernel, hused, by decide +kernel,
    houtcome, hleft⟩

end Controller

end HardSector
