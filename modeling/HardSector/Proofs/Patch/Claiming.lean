import HardSector.Proofs.Patch.Arena

/-!
# Claiming and filling slots

A sector without a patch gets a free slot, which comes before the chain of its bucket.
The other chains do not pass through it, so they stay, and what is left is an arena
again. Filling a slot and counting what was dropped touch no chain at all.
-/

namespace HardSector

/-- A patch of zeros. -/
def PatchPool.blankPatch : Vector UInt8 sectorSize := Vector.replicate sectorSize 0

namespace PatchPool

/-- The claimed slot starts with zeros; the others stay. -/
theorem slots_claim {pool : PatchPool} {slot : Nat} (index : UInt16) (next : Option UInt16)
    (hslot : slot < pool.capacity) (i : Nat) :
    (pool.claim slot index next).slots[i]? =
      if i = slot then some { index := some index, data := blankPatch, next := next }
      else pool.slots[i]? := by
  simp only [claim, Array.getElem?_setIfInBounds, eq_comm (a := slot)]
  by_cases hi : i = slot
  · subst hi
    have hsize : i < pool.slots.size := hslot
    simp only [if_true, if_pos hsize]
    rfl
  · simp only [if_neg hi]

/-- The claimed slot belongs to its sector; the others stay. -/
theorem holder_claim {pool : PatchPool} {slot : Nat} (index : UInt16) (next : Option UInt16)
    (hslot : slot < pool.capacity) (i : Nat) :
    (pool.claim slot index next).holder i = if i = slot then some index else pool.holder i := by
  unfold holder
  rw [slots_claim index next hslot]
  split <;> rfl

/-- Claiming a slot takes exactly that slot. -/
theorem taken_claim {pool : PatchPool} {slot : Nat} (index : UInt16) (next : Option UInt16)
    (hslot : slot < pool.capacity) :
    (pool.claim slot index next).taken = insert slot pool.taken := by
  ext i
  rw [Finset.mem_insert, mem_taken, mem_taken, holder_claim index next hslot]
  by_cases hi : i = slot
  · simp [hi]
  · simp [hi]

/-- Filling a slot changes neither its sector nor its link. -/
theorem slots_fill (pool : PatchPool) (slot : Nat) (data : Bytes) (i : Nat) :
    (pool.fill slot data).slots[i]? =
      if i = slot then (pool.slots[i]?).map fun s => { s with data := overwrite s.data data }
      else pool.slots[i]? := by
  simp only [fill, Array.getElem?_modify, eq_comm (a := slot)]

/-- A filled slot belongs to the sector it belonged to. -/
theorem holder_fill (pool : PatchPool) (slot : Nat) (data : Bytes) (i : Nat) :
    (pool.fill slot data).holder i = pool.holder i := by
  unfold holder
  rw [slots_fill]
  split
  · simp only [Option.bind_map, Function.comp_def]
  · rfl

end PatchPool

namespace Arena

variable {n : Nat} {pool : PatchPool} {tables : Fin n → PatchTable}
  {chains : Fin n → Fin bucketCount → List Nat}

/-! ## Claiming a slot -/

/-- The chains after a slot has come before the chain of a bucket. -/
def extend (chains : Fin n → Fin bucketCount → List Nat) (t : Fin n) (b : Fin bucketCount)
    (slot : Nat) : Fin n → Fin bucketCount → List Nat :=
  Function.update chains t (Function.update (chains t) b (slot :: chains t b))

/-- Only the chain of the bucket has grown. -/
theorem extend_apply (t t' : Fin n) (b b' : Fin bucketCount) (slot : Nat) :
    extend chains t b slot t' b' =
      if t' = t ∧ b' = b then slot :: chains t' b' else chains t' b' := by
  unfold extend
  by_cases ht : t' = t
  · subst ht
    by_cases hb : b' = b
    · subst hb; simp
    · simp [hb]
  · simp [ht]

/-- A slot on the longer chains is the new one in its bucket or was there before. -/
theorem mem_extend {t t' : Fin n} {b b' : Fin bucketCount} {slot i : Nat} :
    i ∈ extend chains t b slot t' b' ↔ (t' = t ∧ b' = b ∧ i = slot) ∨ i ∈ chains t' b' := by
  rw [extend_apply]
  by_cases h : t' = t ∧ b' = b
  · simp [h]
  · rw [if_neg h]
    constructor
    · exact Or.inr
    · rintro (⟨ht, hb, _⟩ | hi)
      · exact absurd ⟨ht, hb⟩ h
      · exact hi

/-- The tables after the chain of a sector's bucket has got a new first slot. -/
def pushed (tables : Fin n → PatchTable) (t : Fin n) (index : UInt16) (slot : Nat) :
    Fin n → PatchTable :=
  Function.update tables t ((tables t).push index (UInt16.ofNat slot))

/-- Only the bucket of the sector has a new first slot. -/
theorem heads_pushed (t t' : Fin n) (index : UInt16) (slot : Nat) (b : Fin bucketCount) :
    getElem (pushed tables t index slot t').heads b.val b.isLt =
      if t' = t ∧ b = PatchTable.bucket index then some (UInt16.ofNat slot)
      else getElem (tables t').heads b.val b.isLt := by
  unfold pushed
  by_cases ht : t' = t
  · subst ht
    simp only [Function.update_self, PatchTable.push, true_and, Vector.getElem_set, Fin.ext_iff,
      eq_comm (a := (PatchTable.bucket index).val)]
  · simp [ht]

/-- One chain of the table has grown by one slot. -/
theorem sum_length_extend (t t' : Fin n) (b : Fin bucketCount) (slot : Nat) :
    ∑ b', (extend chains t b slot t' b').length =
      (if t' = t then 1 else 0) + ∑ b', (chains t' b').length := by
  have hone : ∀ b', (extend chains t b slot t' b').length =
      (if b' = b then if t' = t then 1 else 0 else 0) + (chains t' b').length := by
    intro b'
    rw [extend_apply]
    by_cases ht : t' = t <;> by_cases hb : b' = b <;> simp [ht, hb, Nat.add_comm]
  simp only [hone, Finset.sum_add_distrib, Finset.sum_ite_eq', Finset.mem_univ, if_true]

/-- The table of the sector has one patch more. -/
theorem size_pushed (t t' : Fin n) (index : UInt16) (slot : Nat) :
    (pushed tables t index slot t').size = (if t' = t then 1 else 0) + (tables t').size := by
  unfold pushed
  by_cases ht : t' = t
  · subst ht
    simp [PatchTable.push, Nat.add_comm]
  · simp [ht]

/-- Claiming a free slot for a sector without one keeps an arena. -/
theorem claim (h : Arena pool tables chains) (t : Fin n) (index : UInt16) {slot : Nat}
    (hslot : slot < pool.capacity) (hfree : pool.holder slot = none)
    (hnew : pool.find (tables t) index = none) :
    Arena (pool.claim slot index ((tables t).head index)) (pushed tables t index slot)
      (extend chains t (PatchTable.bucket index) slot) := by
  have hholder := PatchPool.holder_claim index ((tables t).head index) hslot
  have hslots := PatchPool.slots_claim index ((tables t).head index) hslot
  have hne : ∀ {t' b i}, i ∈ chains t' b → i ≠ slot := by
    rintro t' b i hmem rfl
    obtain ⟨index', hindex', _⟩ := h.held hmem
    rw [hfree] at hindex'
    cases hindex'
  have hmap : ∀ t' b, (chains t' b).map
      (pool.claim slot index ((tables t).head index)).holder = (chains t' b).map pool.holder := by
    intro t' b
    refine List.map_congr_left fun i hi => ?_
    rw [hholder, if_neg (hne hi)]
  have hlinked : ∀ t' b, (pool.claim slot index ((tables t).head index)).Linked
      (tables t').heads[b] (chains t' b) := by
    intro t' b
    refine (h.linked t' b).congr fun i hi => ?_
    rw [hslots, if_neg (hne hi)]
  refine ⟨?_, ?_, ?_, ?_, ?_, ?_, ?_, ?_, ?_, ?_, ?_, ?_⟩
  · intro t' b
    have hhead : (pushed tables t index slot t').heads[b] =
        if t' = t ∧ b = PatchTable.bucket index then some (UInt16.ofNat slot)
        else (tables t').heads[b] := heads_pushed t t' index slot b
    rw [hhead, extend_apply]
    by_cases hb : t' = t ∧ b = PatchTable.bucket index
    · obtain ⟨rfl, rfl⟩ := hb
      simp only [and_self, if_true]
      exact ⟨UInt16.ofNat slot, _, rfl, PatchPool.toNat_link h.capacity_le hslot,
        by rw [hslots, if_pos rfl], hlinked _ _⟩
    · rw [if_neg hb, if_neg hb]
      exact hlinked t' b
  · intro t' b i hi
    rcases mem_extend.mp hi with ⟨_, rfl, rfl⟩ | hi
    · exact ⟨index, by rw [hholder, if_pos rfl], rfl⟩
    · obtain ⟨index', hindex', hb⟩ := h.held hi
      exact ⟨index', by rw [hholder, if_neg (hne hi), hindex'], hb⟩
  · intro t' b
    rw [extend_apply]
    by_cases hb : t' = t ∧ b = PatchTable.bucket index
    · obtain ⟨rfl, rfl⟩ := hb
      simp only [and_self, if_true, List.map_cons, hmap, List.nodup_cons]
      refine ⟨?_, h.nodup _ _⟩
      rw [hholder, if_pos rfl]
      intro hmem
      obtain ⟨i, hi, hindex⟩ := List.mem_map.mp hmem
      rw [h.find_eq_some_iff.mpr ⟨hi, hindex⟩] at hnew
      cases hnew
    · rw [if_neg hb, hmap]
      exact h.nodup t' b
  · intro t₁ t₂ b₁ b₂ i h₁ h₂
    rcases mem_extend.mp h₁ with ⟨ht₁, _, hi⟩ | hold₁ <;>
      rcases mem_extend.mp h₂ with ⟨ht₂, _, hi'⟩ | hold₂
    · exact ht₁.trans ht₂.symm
    · exact absurd hi (hne hold₂)
    · exact absurd hi' (hne hold₁)
    · exact h.unshared hold₁ hold₂
  · intro i index' hi
    rw [hholder] at hi
    by_cases heq : i = slot
    · exact ⟨t, PatchTable.bucket index, mem_extend.mpr (Or.inl ⟨rfl, rfl, heq⟩)⟩
    · rw [if_neg heq] at hi
      obtain ⟨t', b, hmem⟩ := h.covered hi
      exact ⟨t', b, mem_extend.mpr (Or.inr hmem)⟩
  · intro i s hs hindex
    rw [hslots] at hs
    split at hs
    · cases hs
      cases hindex
    · exact h.loose hs hindex
  · intro t'
    rw [sum_length_extend, size_pushed, h.size_eq t']
  · simp only [size_pushed, Finset.sum_add_distrib, Finset.sum_ite_eq', Finset.mem_univ, if_true,
      ← h.used_eq_sum, PatchPool.claim, Nat.add_comm]
  · rw [PatchPool.taken_claim index _ hslot, Finset.card_insert_of_notMem, ← h.used_eq_card]
    · rfl
    · rw [PatchPool.mem_taken, hfree]
      simp
  · simpa using h.capacity_le
  · left
    rw [PatchPool.capacity_claim]
    exact Nat.mod_lt _ (by omega)
  · intro hexhausted
    have hused := h.used_lt hslot hfree
    have hfull := h.full_of_exhausted hexhausted
    omega

/-! ## Filling a slot and noting exhaustion -/

/-- Filling a slot keeps an arena. -/
theorem fill (h : Arena pool tables chains) (slot : Nat) (data : Bytes) :
    Arena (pool.fill slot data) tables chains := by
  refine h.congr (fun i => ?_) (PatchPool.capacity_fill ..) rfl rfl fun hexhausted => ?_
  · rw [PatchPool.slots_fill]
    split
    · simp only [Option.map_map, Function.comp_def]
    · rfl
  · rw [PatchPool.capacity_fill]
    exact h.full_of_exhausted hexhausted

/-- Noting that a full pool is exhausted keeps an arena. -/
theorem exhaust (h : Arena pool tables chains) (hfull : pool.used = pool.capacity) :
    Arena pool.exhaust.1 tables chains := by
  unfold PatchPool.exhaust
  split
  · exact h
  · exact h.congr (fun _ => rfl) rfl rfl rfl fun _ => hfull

/-- Counting a dropped write keeps an arena. -/
theorem drop (h : Arena pool tables chains) :
    Arena { pool with droppedWrites := pool.droppedWrites + 1 } tables chains :=
  h.congr (fun _ => rfl) rfl rfl rfl h.full_of_exhausted

end Arena

end HardSector
