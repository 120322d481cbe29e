import HardSector.Proofs.Patch.Chain
import Mathlib.Algebra.BigOperators.Fin
import Mathlib.Algebra.BigOperators.Pi

/-!
# Several tables in one pool

The tables of a controller share the slots of one pool. An arena is a pool with its
tables and the chains of their buckets: every taken slot lies on exactly one chain, in
the bucket of its sector, and no chain holds a sector twice. The operations of a pool
keep this, and through it each table can be read as a map from sectors to patches.
-/

namespace HardSector

namespace PatchPool

/-- The slots that belong to a sector. -/
def taken (pool : PatchPool) : Finset Nat :=
  (Finset.range pool.capacity).filter fun slot => (pool.holder slot).isSome

/-- A slot is taken when it belongs to some sector. -/
theorem mem_taken {pool : PatchPool} {slot : Nat} :
    slot ∈ pool.taken ↔ ∃ index, pool.holder slot = some index := by
  simp only [taken, Finset.mem_filter, Finset.mem_range, Option.isSome_iff_exists]
  constructor
  · exact fun h => h.2
  · rintro ⟨index, hindex⟩
    exact ⟨lt_capacity_of_holder hindex, index, hindex⟩

/-- There are no more taken slots than slots. -/
theorem card_taken_le (pool : PatchPool) : pool.taken.card ≤ pool.capacity := by
  simpa [taken] using Finset.card_filter_le (Finset.range pool.capacity) _

end PatchPool

/-- A pool, the tables that use it, and for each table and bucket the slots of its chain. -/
structure Arena {n : Nat} (pool : PatchPool) (tables : Fin n → PatchTable)
    (chains : Fin n → Fin bucketCount → List Nat) : Prop where
  /-- The links of a bucket follow its chain. -/
  linked : ∀ t b, pool.Linked (tables t).heads[b] (chains t b)
  /-- A chain visits slots of sectors of its bucket only. -/
  held : ∀ {t b slot}, slot ∈ chains t b →
    ∃ index, pool.holder slot = some index ∧ PatchTable.bucket index = b
  /-- No sector has two slots on a chain. -/
  nodup : ∀ t b, ((chains t b).map pool.holder).Nodup
  /-- No slot is on the chains of two tables. -/
  unshared : ∀ {t t' b b' slot}, slot ∈ chains t b → slot ∈ chains t' b' → t = t'
  /-- Every taken slot is on a chain. -/
  covered : ∀ {slot index}, pool.holder slot = some index → ∃ t b, slot ∈ chains t b
  /-- A free slot leads nowhere. -/
  loose : ∀ {slot : Nat} {s : PatchSlot},
    pool.slots[slot]? = some s → s.index = none → s.next = none
  size_eq : ∀ t, (tables t).size = ∑ b, (chains t b).length
  used_eq_sum : pool.used = ∑ t, (tables t).size
  used_eq_card : pool.used = pool.taken.card
  capacity_le : pool.capacity ≤ PatchPool.capacityLimit
  cursor_lt : pool.cursor < pool.capacity ∨ pool.capacity = 0 ∧ pool.cursor = 0
  full_of_exhausted : pool.exhausted = true → pool.used = pool.capacity

namespace Arena

variable {n : Nat} {pool : PatchPool} {tables : Fin n → PatchTable}
  {chains : Fin n → Fin bucketCount → List Nat}

/-- A fresh pool has nothing on its chains. -/
theorem fresh (n capacity : Nat) :
    Arena (PatchPool.ofCapacity capacity) (fun _ : Fin n => PatchTable.empty) fun _ _ => [] := by
  have hholder : ∀ slot, (PatchPool.ofCapacity capacity).holder slot = none := by
    intro slot
    simp only [PatchPool.holder, PatchPool.ofCapacity, Array.getElem?_replicate]
    split <;> rfl
  refine ⟨fun t b => ?_, by simp, by simp, by simp, ?_, ?_, by simp [PatchTable.empty],
    by simp [PatchPool.ofCapacity, PatchTable.empty], ?_, ?_, ?_, ?_⟩
  · simp [PatchPool.Linked, PatchTable.empty]
  · intro slot index h
    rw [hholder] at h
    cases h
  · intro slot s hs _
    simp only [PatchPool.ofCapacity, Array.getElem?_replicate] at hs
    split at hs
    · cases hs; rfl
    · cases hs
  · have hused : (PatchPool.ofCapacity capacity).used = 0 := rfl
    simp [PatchPool.taken, hholder, hused]
  · rw [PatchPool.capacity_ofCapacity]
    exact min_le_right _ _
  · have hcursor : (PatchPool.ofCapacity capacity).cursor = 0 := rfl
    rw [hcursor]
    omega
  · simp [PatchPool.ofCapacity]

/-- An arena depends only on the sectors and links of the slots and on the counters. -/
theorem congr {other : PatchPool} (h : Arena pool tables chains)
    (hslots : ∀ i : Nat, (other.slots[i]?).map (fun s => (s.index, s.next)) =
      (pool.slots[i]?).map fun s => (s.index, s.next))
    (hcapacity : other.capacity = pool.capacity) (hused : other.used = pool.used)
    (hcursor : other.cursor = pool.cursor)
    (hfull : other.exhausted = true → other.used = other.capacity) :
    Arena other tables chains := by
  have hholder : other.holder = pool.holder := by
    funext i
    have hi := congrArg (fun o => o.bind fun p => p.1) (hslots i)
    simpa [PatchPool.holder, Option.bind_map, Function.comp_def] using hi
  have hnext : ∀ i : Nat, (other.slots[i]?).map PatchSlot.next =
      (pool.slots[i]?).map PatchSlot.next := by
    intro i
    have hi := congrArg (Option.map fun p => p.2) (hslots i)
    simpa [Option.map_map, Function.comp_def] using hi
  have htaken : other.taken = pool.taken := by
    unfold PatchPool.taken
    rw [hholder, hcapacity]
  refine ⟨fun t b => (h.linked t b).congr fun i _ => hnext i, ?_, ?_, h.unshared, ?_, ?_,
    h.size_eq, by rw [hused]; exact h.used_eq_sum, by rw [hused, htaken]; exact h.used_eq_card,
    by rw [hcapacity]; exact h.capacity_le, by rw [hcapacity, hcursor]; exact h.cursor_lt, hfull⟩
  · intro t b slot hslot
    rw [hholder]
    exact h.held hslot
  · intro t b
    rw [hholder]
    exact h.nodup t b
  · intro slot index hindex
    rw [hholder] at hindex
    exact h.covered hindex
  · intro i s hs hindex
    have hi := hslots i
    rw [hs, Option.map_some] at hi
    obtain ⟨s', hs', heq⟩ := Option.map_eq_some_iff.mp hi.symm
    obtain ⟨hindex', hnext'⟩ := Prod.mk.inj heq
    rw [← hnext']
    exact h.loose hs' (hindex'.trans hindex)

/-! ## Looking up -/

/-- A chain visits no slot twice. -/
theorem chain_nodup (h : Arena pool tables chains) (t : Fin n) (b : Fin bucketCount) :
    (chains t b).Nodup :=
  (h.nodup t b).of_map _

/-- A slot is on one chain of one table at most. -/
theorem place_inj (h : Arena pool tables chains) {t t' : Fin n} {b b' : Fin bucketCount}
    {slot : Nat} (hslot : slot ∈ chains t b) (hslot' : slot ∈ chains t' b') : t = t' ∧ b = b' := by
  obtain ⟨index, hindex, rfl⟩ := h.held hslot
  obtain ⟨index', hindex', rfl⟩ := h.held hslot'
  cases hindex.symm.trans hindex'
  exact ⟨h.unshared hslot hslot', rfl⟩

/-- The search for a sector is a search along the chain of its bucket. -/
theorem find_eq_find? (h : Arena pool tables chains) (t : Fin n) (index : UInt16) :
    pool.find (tables t) index = (chains t (PatchTable.bucket index)).find?
      fun slot => decide (pool.holder slot = some index) := by
  have hlinked := h.linked t (PatchTable.bucket index)
  have hlength := PatchPool.length_le_of_nodup_of_lt (h.chain_nodup t _) hlinked.lt_capacity
  exact PatchPool.findFrom_eq_find? index hlinked hlength

/-- The search for a sector finds its slot on the chain of its bucket. -/
theorem find_eq_some_iff (h : Arena pool tables chains) {t : Fin n} {index : UInt16}
    {slot : Nat} :
    pool.find (tables t) index = some slot ↔
      slot ∈ chains t (PatchTable.bucket index) ∧ pool.holder slot = some index := by
  rw [h.find_eq_find?]
  constructor
  · intro hslot
    exact ⟨List.mem_of_find?_eq_some hslot, by simpa using List.find?_some hslot⟩
  · rintro ⟨hmem, hindex⟩
    cases hfound : (chains t (PatchTable.bucket index)).find?
        fun slot => decide (pool.holder slot = some index) with
    | none => exact absurd hindex (by simpa using List.find?_eq_none.mp hfound slot hmem)
    | some other =>
      have hother : pool.holder other = some index := by simpa using List.find?_some hfound
      congr 1
      exact List.inj_on_of_nodup_map (h.nodup t _) (List.mem_of_find?_eq_some hfound) hmem
        (hother.trans hindex.symm)

/-- A slot is found for one sector of one table at most. -/
theorem find_inj (h : Arena pool tables chains) {t t' : Fin n} {index index' : UInt16}
    {slot : Nat} (hfind : pool.find (tables t) index = some slot)
    (hfind' : pool.find (tables t') index' = some slot) : t = t' ∧ index = index' := by
  obtain ⟨hmem, hholder⟩ := h.find_eq_some_iff.mp hfind
  obtain ⟨hmem', hholder'⟩ := h.find_eq_some_iff.mp hfind'
  exact ⟨h.unshared hmem hmem', Option.some.inj (hholder.symm.trans hholder')⟩

/-- A taken slot is found for its sector in some table. -/
theorem exists_find (h : Arena pool tables chains) {slot : Nat} {index : UInt16}
    (hholder : pool.holder slot = some index) :
    ∃ t, pool.find (tables t) index = some slot := by
  obtain ⟨t, b, hmem⟩ := h.covered hholder
  obtain ⟨index', hholder', hbucket⟩ := h.held hmem
  have hindex : index' = index := Option.some.inj (hholder'.symm.trans hholder)
  subst hindex hbucket
  exact ⟨t, h.find_eq_some_iff.mpr ⟨hmem, hholder⟩⟩

/-- A sector has a patch exactly when a slot is found for it. -/
theorem patch_eq_none_iff (h : Arena pool tables chains) {t : Fin n} {index : UInt16} :
    pool.patch (tables t) index = none ↔ pool.find (tables t) index = none := by
  unfold PatchPool.patch
  cases hfind : pool.find (tables t) index with
  | none => simp
  | some slot =>
    have hlt := PatchPool.lt_capacity_of_holder (h.find_eq_some_iff.mp hfind).2
    simpa [PatchPool.capacity] using hlt

/-- There are at most as many taken slots as slots. -/
theorem used_le (h : Arena pool tables chains) : pool.used ≤ pool.capacity := by
  rw [h.used_eq_card]
  exact pool.card_taken_le

/-- The search for a free slot fails only in a full pool. -/
theorem used_of_free?_eq_none (h : Arena pool tables chains) (hfree : pool.free? = none) :
    pool.used = pool.capacity := by
  have hall : pool.taken = Finset.range pool.capacity := by
    refine Finset.filter_true_of_mem fun slot hslot => ?_
    exact Option.isSome_iff_exists.mpr
      (PatchPool.holder_of_free?_eq_none hfree (Finset.mem_range.mp hslot))
  rw [h.used_eq_card, hall, Finset.card_range]

/-- A pool with a free slot is not full. -/
theorem used_lt (h : Arena pool tables chains) {slot : Nat} (hslot : slot < pool.capacity)
    (hfree : pool.holder slot = none) : pool.used < pool.capacity := by
  have hout : slot ∉ pool.taken := by
    rw [PatchPool.mem_taken, hfree]
    simp
  have hsub : pool.taken ⊂ Finset.range pool.capacity :=
    (Finset.ssubset_iff_of_subset (Finset.filter_subset _ _)).mpr
      ⟨slot, Finset.mem_range.mpr hslot, hout⟩
  rw [h.used_eq_card]
  simpa using Finset.card_lt_card hsub

end Arena

/-- There are no patches in a fresh pool. -/
theorem PatchPool.patch_ofCapacity (capacity : Nat) (index : UInt16) :
    (ofCapacity capacity).patch .empty index = none := by
  have harena := Arena.fresh 1 capacity
  rw [harena.patch_eq_none_iff (t := 0)]
  cases hfind : (ofCapacity capacity).find PatchTable.empty index with
  | none => rfl
  | some slot => exact absurd (harena.find_eq_some_iff (t := 0).mp hfind).1 (by simp)

end HardSector
