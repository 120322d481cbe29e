import HardSector.Proofs.Medium.Sectored
import HardSector.Proofs.Patch.Effect
import Mathlib.Data.Finset.Card

/-!
# Copy-on-write media as stores of sectors

A copy-on-write medium shows the patch of a sector, or else the image with zeros past its
end. The pool that the media of a controller share has room for every sector that was ever
stored as long as these are not more than its slots.
-/

namespace HardSector

/-- A whole sector leaves nothing of the patch that it is written over. -/
theorem PatchPool.overwrite_sector (old data : Sector) : overwrite old data.toArray = data := by
  ext i hi
  simp [overwrite]

/-- The sectors of a disk have different numbers. -/
theorem sectorNumber_inj {k k' : Fin diskSectors} :
    UInt16.ofNat k = UInt16.ofNat k' ↔ k = k' := by
  refine ⟨fun heq => ?_, fun heq => by rw [heq]⟩
  have hnat := congrArg UInt16.toNat heq
  have hlt : ∀ k : Fin diskSectors, k.val < UInt16.size := fun k => Nat.lt_trans k.isLt (by decide)
  rw [UInt16.toNat_ofNat_of_lt' (hlt k), UInt16.toNat_ofNat_of_lt' (hlt k')] at hnat
  exact Fin.ext hnat

/-- The number of the sector that begins at an offset. -/
theorem Geometry.sectorIndex_mul (k : Nat) :
    eightInch.sectorIndex (k * sectorSize) = UInt16.ofNat k := by
  unfold sectorIndex
  rw [eightInch_size, Nat.mul_div_cancel _ (by decide)]

namespace CopyOnWrite

variable {W : Type}

/-- What a medium shows of a sector. -/
def shows (disk : CopyOnWrite) (pool : PatchPool) (_ : W) (k : Fin diskSectors) : Sector :=
  (pool.patch disk.patches (UInt16.ofNat k)).getD
    (disk.image.padded (k.val * sectorSize) sectorSize)

/-- A look at a sector brings what is shown of it. -/
theorem ofDelivered_look (disk : CopyOnWrite) (pool : PatchPool) (host : W) (k : Fin diskSectors) :
    Buffer.ofDelivered (disk.look pool (k.val * sectorSize) sectorSize).1 =
      Buffer.ofDelivered (disk.shows pool host k).toArray := by
  unfold look shows imageBytes
  rw [Geometry.sectorIndex_mul]
  cases pool.patch disk.patches (UInt16.ofNat k) with
  | none => exact Buffer.ofDelivered_extract _ _
  | some patch =>
    apply Buffer.ofDelivered_congr
    intro i hi
    simp only [Option.getD_some, Array.getD_eq_getD_getElem?, Array.getElem?_append,
      Array.getElem?_extract]
    grind

/-- The tables of the media in the drives. An empty drive has no patches. -/
def tables (rack : Rack CopyOnWrite PatchPool W) (n : Fin driveCount) : PatchTable :=
  (rack.media n).elim .empty patches

/-- The table of a medium in a drive. -/
theorem patches_eq {rack : Rack CopyOnWrite PatchPool W} {n : Fin driveCount} {disk : CopyOnWrite}
    (hmedium : rack.media n = some disk) : disk.patches = tables rack n := by
  unfold tables
  rw [hmedium]
  rfl

/-- The media in the drives share an arena of some capacity, with patches at the places only. -/
structure Patched (capacity : Nat) (places : Finset Place)
    (rack : Rack CopyOnWrite PatchPool W) : Prop where
  arena : ∃ chains, Arena rack.shared (tables rack) chains
  capacity_eq : rack.shared.capacity = capacity
  placed : ∀ {n index patch}, rack.shared.patch (tables rack n) index = some patch →
    ∃ k : Fin diskSectors, (n, k) ∈ places ∧ index = UInt16.ofNat k

/-- What is shown in the drives, told by the tables and the images. -/
theorem view_eq (rack : Rack CopyOnWrite PatchPool W) (n : Fin driveCount) (k : Fin diskSectors) :
    rack.view shows n k = (rack.media n).map fun disk =>
      (rack.shared.patch (tables rack n) (UInt16.ofNat k)).getD
        (disk.image.padded (k.val * sectorSize) sectorSize) := by
  unfold Rack.view tables
  cases rack.media n <;> rfl

/-- The tables after something was done to one of the media. -/
theorem tables_put (rack : Rack CopyOnWrite PatchPool W) (n : Fin driveCount)
    (medium : Option CopyOnWrite) (pool : PatchPool) (host : W) :
    tables (rack.put n medium pool host) =
      Function.update (tables rack) n (medium.elim .empty patches) := by
  funext m
  rw [tables, Rack.media_put, Function.update_apply]
  split <;> rfl

/-- What is shown after a medium has another table. -/
theorem view_put {rack : Rack CopyOnWrite PatchPool W} {n : Fin driveCount}
    {disk : CopyOnWrite} (hmedium : rack.media n = some disk) (table : PatchTable)
    (pool : PatchPool) (host : W) (n' : Fin driveCount) (k' : Fin diskSectors) :
    (rack.put n (some { disk with patches := table }) pool host).view shows n' k' =
      (rack.media n').map fun disk =>
        (pool.patch (Function.update (tables rack) n table n') (UInt16.ofNat k')).getD
          (disk.image.padded (k'.val * sectorSize) sectorSize) := by
  rw [view_eq, tables_put, Rack.media_put]
  split
  · next heq =>
    rw [heq, hmedium]
    rfl
  · rfl

namespace Patched

variable {capacity : Nat} {places : Finset Place} {rack : Rack CopyOnWrite PatchPool W}
  {n : Fin driveCount} {disk : CopyOnWrite}

/-- Media without patches share the arena of a fresh pool. -/
theorem start (capacity : Nat) (host : W) {media : Fin driveCount → Option CopyOnWrite}
    (hfresh : ∀ n disk, media n = some disk → disk.patches = .empty) :
    Patched (min capacity PatchPool.capacityLimit) ∅ ⟨media, .ofCapacity capacity, host⟩ := by
  have htables : tables (⟨media, .ofCapacity capacity, host⟩ : Rack CopyOnWrite PatchPool W) =
      fun _ => .empty := by
    funext n
    change (media n).elim .empty patches = .empty
    cases hmedium : media n with
    | none => rfl
    | some disk => exact hfresh n disk hmedium
  refine ⟨⟨_, htables ▸ Arena.fresh driveCount capacity⟩, PatchPool.capacity_ofCapacity capacity,
    fun {n index patch} hpatch => ?_⟩
  rw [htables, PatchPool.patch_ofCapacity] at hpatch
  cases hpatch

/-- With a sector that was not patched, there are more places than slots in use. -/
theorem used_lt (h : Patched capacity places rack) {k : Fin diskSectors}
    (hnone : rack.shared.patch (tables rack n) (UInt16.ofNat k) = none) :
    rack.shared.used < (insert (n, k) places).card := by
  obtain ⟨chains, harena⟩ := h.arena
  have hcard : rack.shared.taken.card ≤ ((insert (n, k) places).erase (n, k)).card := by
    refine Finset.card_le_card_of_surjOn (fun place =>
      (rack.shared.find (tables rack place.1) (UInt16.ofNat place.2)).getD 0) ?_
    intro slot hslot
    obtain ⟨index, hholder⟩ := PatchPool.mem_taken.mp (Finset.mem_coe.mp hslot)
    obtain ⟨t, hfind⟩ := harena.exists_find hholder
    have hpatched : rack.shared.patch (tables rack t) index ≠ none := by
      rw [Ne, harena.patch_eq_none_iff, hfind]
      simp
    obtain ⟨patch, hpatch⟩ := Option.ne_none_iff_exists'.mp hpatched
    obtain ⟨k', hplace, rfl⟩ := h.placed hpatch
    refine ⟨(t, k'), Finset.mem_coe.mpr (Finset.mem_erase.mpr ⟨?_, ?_⟩), ?_⟩
    · rintro heq
      cases heq
      exact hpatched hnone
    · exact Finset.mem_insert_of_mem hplace
    · simp only [hfind, Option.getD_some]
  rw [harena.used_eq_card]
  exact Nat.lt_of_le_of_lt hcard (Finset.card_erase_lt_of_mem (Finset.mem_insert_self _ _))

/-- What a store leaves behind when its change is one of these. -/
theorem gave (h : Patched capacity places rack) {k : Fin diskSectors} {data : Sector}
    (hmedium : rack.media n = some disk) {change : PatchPool.Change Bool}
    (hgave : Arena.Gave rack.shared (tables rack) n (UInt16.ofNat k) data change)
    (host : W) :
    Patched capacity (insert (n, k) places)
        (rack.put n (some { disk with patches := change.table }) change.pool host) ∧
      ∀ n' k', (rack.put n (some { disk with patches := change.table }) change.pool host).view
          shows n' k' =
        if n' = n ∧ k' = k then some data
        else rack.view shows n' k' := by
  refine ⟨⟨?_, hgave.capacity.trans h.capacity_eq, fun {n' index patch} hpatch => ?_⟩,
    fun n' k' => ?_⟩
  · rw [tables_put]
    exact hgave.arena
  · rw [tables_put] at hpatch
    have hpatch := (hgave.patch n' index).symm.trans hpatch
    split at hpatch
    · next heq =>
      obtain ⟨rfl, rfl⟩ := heq
      exact ⟨k, Finset.mem_insert_self _ _, rfl⟩
    · obtain ⟨k', hplace, hindex⟩ := h.placed hpatch
      exact ⟨k', Finset.mem_insert_of_mem hplace, hindex⟩
  · rw [view_put hmedium, hgave.patch]
    simp only [sectorNumber_inj]
    split
    · next heq =>
      obtain ⟨rfl, rfl⟩ := heq
      rw [hmedium]
      rfl
    · rw [view_eq]

/-- What a store leaves behind that found no room. -/
theorem refused (h : Patched capacity places rack) {k : Fin diskSectors}
    (hmedium : rack.media n = some disk) {drops : Nat} {change : PatchPool.Change Bool}
    (hrefused : Arena.Refused rack.shared (tables rack) n (UInt16.ofNat k) drops change)
    (host : W) :
    Patched capacity (insert (n, k) places)
        (rack.put n (some { disk with patches := change.table }) change.pool host) ∧
      ∀ n' k', (rack.put n (some { disk with patches := change.table }) change.pool host).view
          shows n' k' =
        rack.view shows n' k' := by
  have htables : Function.update (tables rack) n change.table = tables rack := by
    rw [hrefused.table, Function.update_eq_self]
  refine ⟨⟨?_, hrefused.capacity.trans h.capacity_eq, fun {n' index patch} hpatch => ?_⟩,
    fun n' k' => ?_⟩
  · rw [tables_put, Option.elim_some, htables]
    exact hrefused.arena
  · rw [tables_put, Option.elim_some, htables] at hpatch
    obtain ⟨k', hplace, hindex⟩ := h.placed ((hrefused.patch n' index).symm.trans hpatch)
    exact ⟨k', Finset.mem_insert_of_mem hplace, hindex⟩
  · rw [view_put hmedium, htables, hrefused.patch, view_eq]

/-- Room for all places is room for a store to one of them. -/
theorem store (h : Patched capacity places rack) (hmedium : rack.media n = some disk)
    (k : Fin diskSectors) (data : Sector) (host : W) :
    let change := rack.shared.store disk.patches (UInt16.ofNat k) data.toArray
    let rack' := rack.put n (some { disk with patches := change.table }) change.pool host
    ((insert (n, k) places).card ≤ capacity → change.result = true) ∧
      change.pool.droppedWrites =
        rack.shared.droppedWrites + (if change.result then 0 else 1) ∧
      Patched capacity (insert (n, k) places) rack' ∧
      ∀ n' k', rack'.view shows n' k' =
        if change.result = true ∧ n' = n ∧ k' = k then some data
        else rack.view shows n' k' := by
  intro change rack'
  obtain ⟨chains, harena⟩ := h.arena
  have hchange : change = rack.shared.store (tables rack n) (UInt16.ofNat k) data.toArray :=
    congrArg (fun table => rack.shared.store table (UInt16.ofNat k) data.toArray)
      (patches_eq hmedium)
  cases hresult : change.result with
  | true =>
    rw [hchange] at hresult
    have hgave := harena.store_kept hresult
    rw [← hchange, PatchPool.overwrite_sector] at hgave
    obtain ⟨hpatched, hview⟩ := h.gave hmedium hgave host
    refine ⟨fun _ => rfl, hgave.dropped, hpatched, fun n' k' => (hview n' k').trans ?_⟩
    simp only [true_and]
  | false =>
    rw [hchange] at hresult
    have hrefused := harena.store_dropped hresult
    rw [← hchange] at hrefused
    obtain ⟨hpatched, hview⟩ := h.refused hmedium hrefused host
    refine ⟨fun hfits => ?_, hrefused.dropped, hpatched, fun n' k' => (hview n' k').trans ?_⟩
    · have hlt := h.used_lt hrefused.unpatched
      have hfull := hrefused.full
      have hcapacity := h.capacity_eq
      omega
    · simp only [Bool.false_eq_true, false_and, if_false]

/-- A medium that leaves gives back its own patches only. -/
theorem clear (h : Patched capacity places rack) (hmedium : rack.media n = some disk) (host : W) :
    let change := rack.shared.clear disk.patches
    let rack' := rack.put n none change.pool host
    change.pool.droppedWrites = rack.shared.droppedWrites ∧ Patched capacity places rack' ∧
      ∀ n' k', n' ≠ n → rack'.view shows n' k' = rack.view shows n' k' := by
  intro change rack'
  obtain ⟨chains, harena⟩ := h.arena
  have hchange : change = rack.shared.clear (tables rack n) :=
    congrArg rack.shared.clear (patches_eq hmedium)
  have heq := hchange.trans (harena.clear_eq n)
  obtain ⟨_, hcapacity, _, hdropped, _⟩ :=
    PatchPool.giveAll_fields rack.shared (Arena.slotsOf chains n)
  have hpatch := harena.patch_clear n
  rw [← hchange] at hpatch
  have htables : tables rack' = Function.update (tables rack) n .empty := tables_put ..
  have hcleared := harena.clear n
  rw [← hchange, ← htables] at hcleared
  refine ⟨?_, ⟨⟨_, hcleared⟩, ?_, fun {n' index patch} hsome => ?_⟩, fun n' k' hne => ?_⟩
  · rw [heq]
    exact hdropped
  · have hkept : change.pool.capacity = rack.shared.capacity := by
      rw [heq]
      exact hcapacity
    exact hkept.trans h.capacity_eq
  · rw [htables] at hsome
    have hold := (hpatch n' index).symm.trans hsome
    split at hold
    · cases hold
    · exact h.placed hold
  · have hmedia : rack'.media n' = rack.media n' := Function.update_of_ne hne _ _
    have hsame : rack'.shared.patch (tables rack' n') (UInt16.ofNat k') =
        rack.shared.patch (tables rack n') (UInt16.ofNat k') := by
      rw [htables]
      exact (hpatch n' _).trans (if_neg hne)
    rw [view_eq, view_eq, hmedia, hsame]

/-- A medium without patches may come into an empty drive. -/
theorem accept (h : Patched capacity places rack) (hempty : rack.media n = none)
    (hfresh : disk.patches = .empty) :
    Patched capacity places (rack.put n (some disk) rack.shared rack.host) := by
  have htables : tables (rack.put n (some disk) rack.shared rack.host) = tables rack := by
    have htable : tables rack n = .empty := by
      unfold tables
      rw [hempty]
      rfl
    rw [tables_put, Option.elim_some, hfresh, ← htable, Function.update_eq_self]
  refine ⟨?_, h.capacity_eq, ?_⟩
  · rw [htables]
    exact h.arena
  · rw [htables]
    exact h.placed

end Patched

/-- A store goes to the pool, under the number of its sector. -/
theorem store_eq (disk : CopyOnWrite) (site : Site PatchPool W) (k : Fin diskSectors)
    (data : Sector) :
    let change := site.shared.store disk.patches (UInt16.ofNat k) data.toArray
    Medium.store disk site (k.val * sectorSize) data.toArray =
      ⟨.ok (), { disk with patches := change.table },
        ⟨change.pool, site.host, site.notices ++ change.notices⟩⟩ := by
  rw [← Geometry.sectorIndex_mul]
  rfl

/-- Copy-on-write media with a pool of some capacity are stores of sectors. What is lost are the
dropped writes. -/
def sectored (capacity : Nat) : Sectored CopyOnWrite PatchPool W where
  Sane := Patched capacity
  sector := shows
  Fresh disk := disk.patches = .empty
  Fits places := places.card ≤ capacity
  fits_mono hsub hfits := Nat.le_trans (Finset.card_le_card hsub) hfits
  lost := PatchPool.droppedWrites
  fetch {places rack n disk} k notices hsane hmedium := by
    refine ⟨_, _, disk, rack.shared, rack.host, rfl, ofDelivered_look .., rfl, ?_⟩
    rw [Rack.put_self hmedium]
    exact ⟨hsane, fun _ _ => rfl⟩
  store {places rack n disk} k data notices hsane hmedium := by
    obtain ⟨hroom, hlost, hpatched, hview⟩ := hsane.store hmedium k data rack.host
    exact ⟨_, _, rack.host, _, _, store_eq disk _ k data, hroom, hlost, hpatched, hview⟩
  release {places rack n disk} notices hsane hmedium := by
    obtain ⟨hlost, hpatched, hview⟩ := hsane.clear hmedium rack.host
    exact ⟨_, (rack.shared.clear disk.patches).pool, rack.host, _, rfl, hlost, hpatched, hview⟩
  accept {places rack n disk} hsane hempty hfresh := hsane.accept hempty hfresh

end CopyOnWrite

end HardSector
