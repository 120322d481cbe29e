import HardSector.Proofs.Patch.Claiming
import HardSector.Proofs.Patch.Clearing

/-!
# The effect of pool operations on patches

A table can be read as a map from sectors to patches. In an arena a store changes this
map for one sector of one table or, when the pool is full, not at all, and clearing a
table empties its own map only.
-/

namespace HardSector

/-- What a table shows of a sector depends on the slot found and on its bytes. -/
theorem PatchPool.patch_congr {pool other : PatchPool} {table table' : PatchTable}
    {index : UInt16} (hfind : other.find table' index = pool.find table index)
    (hdata : ∀ slot, pool.find table index = some slot →
      (other.slots[slot]?).map PatchSlot.data = (pool.slots[slot]?).map PatchSlot.data) :
    other.patch table' index = pool.patch table index := by
  unfold PatchPool.patch
  rw [hfind]
  cases hslot : pool.find table index with
  | none => rfl
  | some slot => exact hdata slot hslot

/-- Pools with the same slots show the same patches. -/
theorem PatchPool.patch_of_slots_eq {pool other : PatchPool} (h : other.slots = pool.slots)
    (table : PatchTable) (index : UInt16) : other.patch table index = pool.patch table index := by
  have hfindFrom : ∀ fuel head, other.findFrom index fuel head = pool.findFrom index fuel head := by
    intro fuel
    induction fuel with
    | zero => exact fun _ => rfl
    | succ fuel ih =>
      intro head
      cases head with
      | none => rfl
      | some link => simp only [findFrom, h, ih]
  refine patch_congr ?_ fun slot _ => by rw [h]
  unfold find capacity
  rw [h, hfindFrom]

namespace Arena

variable {n : Nat} {pool : PatchPool} {tables : Fin n → PatchTable}
  {chains : Fin n → Fin bucketCount → List Nat}

/-- The search after a slot was claimed finds it for its sector, and else what it found before. -/
theorem find_claim (h : Arena pool tables chains) {t : Fin n} {index : UInt16} {slot : Nat}
    (hslot : slot < pool.capacity) (hfree : pool.holder slot = none)
    (hnew : pool.find (tables t) index = none) (t' : Fin n) (index' : UInt16) :
    (pool.claim slot index ((tables t).head index)).find (pushed tables t index slot t') index' =
      if t' = t ∧ index' = index then some slot else pool.find (tables t') index' := by
  have hclaim := h.claim t index hslot hfree hnew
  have hholder := PatchPool.holder_claim index ((tables t).head index) hslot
  by_cases heq : t' = t ∧ index' = index
  · obtain ⟨rfl, rfl⟩ := heq
    rw [if_pos ⟨rfl, rfl⟩]
    exact hclaim.find_eq_some_iff.mpr
      ⟨mem_extend.mpr (Or.inl ⟨rfl, rfl, rfl⟩), by rw [hholder, if_pos rfl]⟩
  · rw [if_neg heq]
    ext found
    rw [hclaim.find_eq_some_iff, h.find_eq_some_iff, mem_extend, hholder]
    by_cases hfound : found = slot
    · subst hfound
      rw [if_pos rfl, hfree]
      constructor
      · rintro ⟨⟨ht, _, _⟩ | hmem, hindex⟩
        · exact absurd ⟨ht, (Option.some.inj hindex).symm⟩ heq
        · obtain ⟨_, hheld, _⟩ := h.held hmem
          rw [hfree] at hheld
          cases hheld
      · rintro ⟨_, hindex⟩
        cases hindex
    · simp only [hfound, and_false, false_or, if_false]

/-- A claimed slot is a patch of zeros for its sector; all other patches stay. -/
theorem patch_claim (h : Arena pool tables chains) {t : Fin n} {index : UInt16} {slot : Nat}
    (hslot : slot < pool.capacity) (hfree : pool.holder slot = none)
    (hnew : pool.find (tables t) index = none) (t' : Fin n) (index' : UInt16) :
    (pool.claim slot index ((tables t).head index)).patch (pushed tables t index slot t') index' =
      if t' = t ∧ index' = index then some PatchPool.blankPatch
      else pool.patch (tables t') index' := by
  have hfind := h.find_claim hslot hfree hnew t' index'
  have hslots := PatchPool.slots_claim index ((tables t).head index) hslot
  by_cases heq : t' = t ∧ index' = index
  · rw [if_pos heq] at hfind ⊢
    simp only [PatchPool.patch, hfind, hslots, if_true, Option.map_some]
  · rw [if_neg heq] at hfind ⊢
    refine PatchPool.patch_congr hfind fun found hfound => ?_
    have hne : found ≠ slot := by
      rintro rfl
      rw [(h.find_eq_some_iff.mp hfound).2] at hfree
      cases hfree
    rw [hslots, if_neg hne]

/-- Filling the slot of a sector writes over its patch; all other patches stay. -/
theorem patch_fill (h : Arena pool tables chains) {t : Fin n} {index : UInt16} {slot : Nat}
    (data : Bytes) (hfound : pool.find (tables t) index = some slot) (t' : Fin n)
    (index' : UInt16) :
    (pool.fill slot data).patch (tables t') index' =
      if t' = t ∧ index' = index then
        (pool.patch (tables t) index).map fun old => PatchPool.overwrite old data
      else pool.patch (tables t') index' := by
  have hslots := PatchPool.slots_fill pool slot data
  have hfind : (pool.fill slot data).find (tables t') index' = pool.find (tables t') index' := by
    ext found
    rw [(h.fill slot data).find_eq_some_iff, h.find_eq_some_iff, PatchPool.holder_fill]
  by_cases heq : t' = t ∧ index' = index
  · obtain ⟨rfl, rfl⟩ := heq
    rw [if_pos ⟨rfl, rfl⟩]
    simp only [PatchPool.patch, hfind, hfound, hslots, if_true, Option.map_map, Function.comp_def]
  · rw [if_neg heq]
    refine PatchPool.patch_congr hfind fun found hfound' => ?_
    have hne : found ≠ slot := by
      rintro rfl
      exact heq (h.find_inj hfound' hfound)
    rw [hslots, if_neg hne]

/-- Clearing a table takes all its patches; those of the other tables stay. -/
theorem patch_clear (h : Arena pool tables chains) (t t' : Fin n) (index : UInt16) :
    (pool.clear (tables t)).pool.patch (Function.update tables t .empty t') index =
      if t' = t then none else pool.patch (tables t') index := by
  have hclear := h.clear t
  by_cases ht : t' = t
  · subst ht
    rw [if_pos rfl, hclear.patch_eq_none_iff]
    cases hfind : (pool.clear (tables t')).pool.find
        (Function.update tables t' .empty t') index with
    | none => rfl
    | some found =>
      have hmem := (hclear.find_eq_some_iff.mp hfind).1
      simp at hmem
  · rw [if_neg ht]
    have hkept : ∀ {b found}, found ∈ chains t' b → found ∉ slotsOf chains t := by
      intro b found hmem hgiven
      obtain ⟨b', hmem'⟩ := mem_slotsOf.mp hgiven
      exact ht (h.unshared hmem hmem')
    have hslots : ∀ {b found}, found ∈ chains t' b →
        (pool.clear (tables t)).pool.slots[found]? = pool.slots[found]? := by
      intro b found hmem
      rw [h.clear_eq t]
      exact (PatchPool.slots_giveAll ..).trans (if_neg (hkept hmem))
    refine PatchPool.patch_congr ?_ fun found hfound => ?_
    · ext found
      rw [hclear.find_eq_some_iff, h.find_eq_some_iff, Function.update_of_ne ht]
      refine and_congr_right fun hmem => ?_
      unfold PatchPool.holder
      rw [hslots hmem]
    · rw [hslots (h.find_eq_some_iff.mp hfound).1]

/-! ## Obtaining a slot -/

/-- A slot is obtained in one of three ways: the sector has one, a free one is claimed, or the
pool is full. -/
theorem obtain_cases (h : Arena pool tables chains) (t : Fin n) (index : UInt16) :
    (∃ slot, pool.find (tables t) index = some slot ∧
      pool.obtain (tables t) index = ⟨some slot, pool, tables t, []⟩) ∨
    (∃ slot, pool.find (tables t) index = none ∧ slot < pool.capacity ∧
      pool.holder slot = none ∧
      pool.obtain (tables t) index = ⟨some slot, pool.claim slot index ((tables t).head index),
        (tables t).push index (UInt16.ofNat slot), []⟩) ∨
    (pool.find (tables t) index = none ∧ pool.used = pool.capacity ∧
      pool.obtain (tables t) index = ⟨none, pool.exhaust.1, tables t, pool.exhaust.2⟩) := by
  unfold PatchPool.obtain
  cases hfind : pool.find (tables t) index with
  | some slot => exact Or.inl ⟨slot, rfl, rfl⟩
  | none =>
    right
    cases hfree : pool.free? with
    | some slot =>
      obtain ⟨hslot, hholder⟩ := PatchPool.free_of_free? hfree
      exact Or.inl ⟨slot, rfl, hslot, hholder, rfl⟩
    | none => exact Or.inr ⟨rfl, h.used_of_free?_eq_none hfree, rfl⟩

/-- A change that has given one sector of one table a patch and left all other patches. -/
structure Gave {α : Type} (pool : PatchPool) (tables : Fin n → PatchTable) (t : Fin n)
    (index : UInt16) (value : Vector UInt8 sectorSize) (change : PatchPool.Change α) : Prop where
  arena : ∃ chains, Arena change.pool (Function.update tables t change.table) chains
  capacity : change.pool.capacity = pool.capacity
  /-- There was a patch already, or there was room for one. -/
  room : pool.patch (tables t) index ≠ none ∨ pool.used < pool.capacity
  patch : ∀ t' index', change.pool.patch (Function.update tables t change.table t') index' =
    if t' = t ∧ index' = index then some value else pool.patch (tables t') index'
  size : change.table.size =
    (tables t).size + if (pool.patch (tables t) index).isSome then 0 else 1
  dropped : change.pool.droppedWrites = pool.droppedWrites

/-- A change that found no room for a patch of a sector and left all patches. -/
structure Refused {α : Type} (pool : PatchPool) (tables : Fin n → PatchTable) (t : Fin n)
    (index : UInt16) (drops : Nat) (change : PatchPool.Change α) : Prop where
  arena : ∃ chains, Arena change.pool tables chains
  capacity : change.pool.capacity = pool.capacity
  unpatched : pool.patch (tables t) index = none
  full : pool.used = pool.capacity
  patch : ∀ t' index', change.pool.patch (tables t') index' = pool.patch (tables t') index'
  table : change.table = tables t
  dropped : change.pool.droppedWrites = pool.droppedWrites + drops

/-- Obtaining a slot gives the sector a patch, its old one or one of zeros, in that slot. -/
theorem obtain_some (h : Arena pool tables chains) {t : Fin n} {index : UInt16} {slot : Nat}
    (hslot : (pool.obtain (tables t) index).result = some slot) :
    Gave pool tables t index ((pool.patch (tables t) index).getD PatchPool.blankPatch)
        (pool.obtain (tables t) index) ∧
      (pool.obtain (tables t) index).pool.find (pool.obtain (tables t) index).table index =
        some slot := by
  have hcapacity := PatchPool.capacity_obtain pool (tables t) index
  rcases h.obtain_cases t index with ⟨found, hfind, hobtain⟩ |
    ⟨found, hfind, hlt, hfree, hobtain⟩ | ⟨_, _, hobtain⟩
  · rw [hobtain] at hslot ⊢
    cases hslot
    have hpatch : pool.patch (tables t) index ≠ none := by
      rw [Ne, h.patch_eq_none_iff, hfind]
      simp
    obtain ⟨old, hold⟩ := Option.ne_none_iff_exists'.mp hpatch
    refine ⟨⟨⟨chains, by simpa using h⟩, rfl, Or.inl hpatch, ?_, by simp [hold], rfl⟩, hfind⟩
    intro t' index'
    rw [Function.update_eq_self]
    split
    · next heq =>
      obtain ⟨rfl, rfl⟩ := heq
      simp [hold]
    · rfl
  · rw [hobtain] at hslot hcapacity ⊢
    cases hslot
    have hnone : pool.patch (tables t) index = none := h.patch_eq_none_iff.mpr hfind
    refine ⟨⟨⟨_, h.claim t index hlt hfree hfind⟩, hcapacity, Or.inr (h.used_lt hlt hfree), ?_,
      by simp [hnone, PatchTable.push], rfl⟩, ?_⟩
    · intro t' index'
      rw [hnone]
      exact h.patch_claim hlt hfree hfind t' index'
    · simpa [pushed] using h.find_claim hlt hfree hfind t index
  · rw [hobtain] at hslot
    cases hslot

/-- No slot is obtained only for a sector without a patch in a full pool. -/
theorem obtain_none (h : Arena pool tables chains) {t : Fin n} {index : UInt16}
    (hslot : (pool.obtain (tables t) index).result = none) :
    Refused pool tables t index 0 (pool.obtain (tables t) index) := by
  rcases h.obtain_cases t index with ⟨found, hfind, hobtain⟩ |
    ⟨found, hfind, hlt, hfree, hobtain⟩ | ⟨hfind, hfull, hobtain⟩
  · rw [hobtain] at hslot
    cases hslot
  · rw [hobtain] at hslot
    cases hslot
  · rw [hobtain]
    refine ⟨⟨chains, h.exhaust hfull⟩, PatchPool.capacity_exhaust pool,
      h.patch_eq_none_iff.mpr hfind, hfull, fun t' index' => ?_, rfl, ?_⟩
    · refine PatchPool.patch_of_slots_eq ?_ _ _
      unfold PatchPool.exhaust
      split <;> rfl
    · unfold PatchPool.exhaust
      split <;> rfl

end Arena

/-! ## Storing -/

/-- A store fills the slot that is obtained for its sector. -/
theorem PatchPool.store_of_obtain_some {pool : PatchPool} {table : PatchTable} {index : UInt16}
    {slot : Nat} (data : Bytes) (h : (pool.obtain table index).result = some slot) :
    pool.store table index data = ⟨true, (pool.obtain table index).pool.fill slot data,
      (pool.obtain table index).table, (pool.obtain table index).notices⟩ := by
  unfold store
  split
  · next hobtain =>
    rw [hobtain] at h ⊢
    cases h
    rfl
  · next hobtain => simp [hobtain] at h

/-- A store that obtains no slot counts a dropped write. -/
theorem PatchPool.store_of_obtain_none {pool : PatchPool} {table : PatchTable} {index : UInt16}
    (data : Bytes) (h : (pool.obtain table index).result = none) :
    pool.store table index data =
      ⟨false, { (pool.obtain table index).pool with
          droppedWrites := (pool.obtain table index).pool.droppedWrites + 1 },
        (pool.obtain table index).table, (pool.obtain table index).notices⟩ := by
  unfold store
  split
  · next hobtain => simp [hobtain] at h
  · next hobtain => rw [hobtain]

namespace Arena

variable {n : Nat} {pool : PatchPool} {tables : Fin n → PatchTable}
  {chains : Fin n → Fin bucketCount → List Nat}

/-- A store that succeeds writes over the patch of its sector, or over zeros if there was none. -/
theorem store_kept (h : Arena pool tables chains) {t : Fin n} {index : UInt16} {data : Bytes}
    (hkept : (pool.store (tables t) index data).result = true) :
    Gave pool tables t index
      (PatchPool.overwrite ((pool.patch (tables t) index).getD PatchPool.blankPatch) data)
      (pool.store (tables t) index data) := by
  cases hslot : (pool.obtain (tables t) index).result with
  | none =>
    rw [PatchPool.store_of_obtain_none data hslot] at hkept
    cases hkept
  | some slot =>
    obtain ⟨hgave, hfind⟩ := h.obtain_some hslot
    obtain ⟨chains', harena⟩ := hgave.arena
    rw [PatchPool.store_of_obtain_some data hslot]
    refine ⟨⟨chains', harena.fill slot data⟩, ?_, hgave.room, fun t' index' => ?_, hgave.size,
      hgave.dropped⟩
    · rw [PatchPool.capacity_fill, hgave.capacity]
    · have hfound : (pool.obtain (tables t) index).pool.find
          (Function.update tables t (pool.obtain (tables t) index).table t) index = some slot := by
        rw [Function.update_self, hfind]
      rw [harena.patch_fill data hfound t' index', hgave.patch t index, hgave.patch t' index']
      split <;> simp

/-- A store is dropped, and counted, only for a sector without a patch in a full pool. -/
theorem store_dropped (h : Arena pool tables chains) {t : Fin n} {index : UInt16} {data : Bytes}
    (hdropped : (pool.store (tables t) index data).result = false) :
    Refused pool tables t index 1 (pool.store (tables t) index data) := by
  cases hslot : (pool.obtain (tables t) index).result with
  | some slot =>
    rw [PatchPool.store_of_obtain_some data hslot] at hdropped
    cases hdropped
  | none =>
    have hrefused := h.obtain_none hslot
    obtain ⟨chains', harena⟩ := hrefused.arena
    rw [PatchPool.store_of_obtain_none data hslot]
    refine ⟨⟨chains', harena.drop⟩, hrefused.capacity, hrefused.unpatched, hrefused.full,
      fun t' index' => ?_, hrefused.table, congrArg (· + 1) hrefused.dropped⟩
    rw [← hrefused.patch t' index']
    apply PatchPool.patch_of_slots_eq
    rfl

end Arena

end HardSector
