import HardSector.Proofs.Patch.Arena

/-!
# Clearing a table

Clearing a table gives back the slots on its own chains. The chains of the other tables
pass through none of them, however they are interleaved in the pool, so what is left is
an arena again, in which the table has no patches.
-/

namespace HardSector.Arena

variable {n : Nat} {pool : PatchPool} {tables : Fin n → PatchTable}
  {chains : Fin n → Fin bucketCount → List Nat}

/-- The slots of all chains of a table. -/
def slotsOf (chains : Fin n → Fin bucketCount → List Nat) (t : Fin n) : List Nat :=
  (List.ofFn (chains t)).flatten

/-- A table's slots are those on its chains. -/
theorem mem_slotsOf {t : Fin n} {slot : Nat} :
    slot ∈ slotsOf chains t ↔ ∃ b, slot ∈ chains t b := by
  constructor
  · intro hslot
    obtain ⟨chain, hchain, hslot⟩ := List.mem_flatten.mp hslot
    obtain ⟨b, rfl⟩ := List.mem_ofFn.mp hchain
    exact ⟨b, hslot⟩
  · rintro ⟨b, hslot⟩
    exact List.mem_flatten.mpr ⟨chains t b, List.mem_ofFn.mpr ⟨b, rfl⟩, hslot⟩

/-- The chains of a table have no slot in common. -/
theorem nodup_slotsOf (h : Arena pool tables chains) (t : Fin n) : (slotsOf chains t).Nodup := by
  refine List.nodup_flatten.mpr ⟨?_, List.pairwise_ofFn.mpr fun b b' hb => ?_⟩
  · intro chain hchain
    obtain ⟨b, rfl⟩ := List.mem_ofFn.mp hchain
    exact h.chain_nodup t b
  · intro slot hslot hslot'
    exact hb.ne (h.place_inj hslot hslot').2

/-- A table has as many slots as patches. -/
theorem length_slotsOf (h : Arena pool tables chains) (t : Fin n) :
    (slotsOf chains t).length = (tables t).size := by
  rw [h.size_eq, slotsOf, List.length_flatten, List.map_ofFn, List.sum_ofFn]
  rfl

/-- The chains of a table follow the links from its heads. -/
theorem linked_heads (h : Arena pool tables chains) (t : Fin n) :
    List.Forall₂ pool.Linked (tables t).heads.toList (List.ofFn (chains t)) := by
  rw [List.forall₂_iff_get]
  refine ⟨by rw [Vector.length_toList, List.length_ofFn], fun i hi hi' => ?_⟩
  rw [List.length_ofFn] at hi'
  simpa only [List.get_eq_getElem, Vector.getElem_toList, List.getElem_ofFn, Fin.getElem_fin]
    using h.linked t ⟨i, hi'⟩

/-- Clearing a table gives back exactly its slots. -/
theorem clear_eq (h : Arena pool tables chains) (t : Fin n) :
    pool.clear (tables t) =
      ⟨(tables t).size, { pool.giveAll (slotsOf chains t) with exhausted := false },
        .empty, []⟩ := by
  have hfree := PatchPool.freeChains_eq 0 (h.linked_heads t) (h.nodup_slotsOf t)
  unfold PatchPool.clear
  rw [hfree]
  simp only [Nat.zero_add]
  rw [← h.length_slotsOf t]
  rfl

/-- What belongs to a sector once the slots of a table have been given back. -/
theorem holder_giveAll (given : List Nat) (slot : Nat) :
    (pool.giveAll given).holder slot = if slot ∈ given then none else pool.holder slot := by
  unfold PatchPool.holder
  rw [PatchPool.slots_giveAll]
  split
  · cases pool.slots[slot]? <;> rfl
  · rfl

/-- Giving back the slots of a table leaves the other taken slots. -/
theorem card_taken_giveAll (h : Arena pool tables chains) (t : Fin n) :
    (pool.giveAll (slotsOf chains t)).taken.card = pool.taken.card - (tables t).size := by
  have hsub : (slotsOf chains t).toFinset ⊆ pool.taken := by
    intro slot hslot
    obtain ⟨b, hmem⟩ := mem_slotsOf.mp (List.mem_toFinset.mp hslot)
    obtain ⟨index, hindex, _⟩ := h.held hmem
    exact PatchPool.mem_taken.mpr ⟨index, hindex⟩
  have htaken : (pool.giveAll (slotsOf chains t)).taken =
      pool.taken \ (slotsOf chains t).toFinset := by
    ext slot
    rw [Finset.mem_sdiff, List.mem_toFinset, PatchPool.mem_taken, PatchPool.mem_taken,
      holder_giveAll]
    by_cases hslot : slot ∈ slotsOf chains t <;> simp [hslot]
  rw [htaken, Finset.card_sdiff_of_subset hsub, List.toFinset_card_of_nodup (h.nodup_slotsOf t),
    h.length_slotsOf]

/-- The patches of all tables are those of a table and those that are left once it is cleared. -/
theorem size_add_sum_cleared (t : Fin n) :
    (tables t).size + ∑ t', (Function.update tables t .empty t').size = ∑ t', (tables t').size := by
  have hone : ∀ t', (tables t').size =
      (if t' = t then (tables t).size else 0) + (Function.update tables t .empty t').size := by
    intro t'
    by_cases ht : t' = t
    · subst ht
      simp [PatchTable.empty]
    · simp [ht]
  rw [Finset.sum_congr rfl fun t' _ => hone t', Finset.sum_add_distrib,
    Finset.sum_ite_eq' Finset.univ t, if_pos (Finset.mem_univ t)]

/-- A table has no more patches than slots are used. -/
theorem size_le_used (h : Arena pool tables chains) (t : Fin n) : (tables t).size ≤ pool.used := by
  rw [h.used_eq_sum, ← size_add_sum_cleared t]
  exact Nat.le_add_right _ _

/-- Clearing a table keeps an arena, in which the table has no chains any more. -/
theorem clear (h : Arena pool tables chains) (t : Fin n) :
    Arena (pool.clear (tables t)).pool (Function.update tables t .empty)
      (Function.update chains t fun _ => []) := by
  obtain ⟨hused, hcapacity, hcursor, _, _⟩ :=
    PatchPool.giveAll_fields pool (slotsOf chains t)
  have hgiven : ∀ {t' b slot}, t' ≠ t → slot ∈ chains t' b → slot ∉ slotsOf chains t := by
    intro t' b slot ht hslot hmem
    obtain ⟨b', hslot'⟩ := mem_slotsOf.mp hmem
    exact ht (h.unshared hslot hslot')
  have hother : ∀ {t' b slot}, slot ∈ Function.update chains t (fun _ => []) t' b →
      t' ≠ t ∧ slot ∈ chains t' b := by
    intro t' b slot hslot
    by_cases ht : t' = t
    · subst ht
      simp at hslot
    · rw [Function.update_of_ne ht] at hslot
      exact ⟨ht, hslot⟩
  let cleared := { pool.giveAll (slotsOf chains t) with exhausted := false }
  have hused : cleared.used = pool.used - (slotsOf chains t).length := hused
  have hcapacity : cleared.capacity = pool.capacity := hcapacity
  have hcursor : cleared.cursor = pool.cursor := hcursor
  have hslots : ∀ i : Nat, cleared.slots[i]? = if i ∈ slotsOf chains t then
      (pool.slots[i]?).map fun s => { s with index := none, next := none }
      else pool.slots[i]? := PatchPool.slots_giveAll _ _
  have hholder : ∀ slot, cleared.holder slot =
      if slot ∈ slotsOf chains t then none else pool.holder slot := holder_giveAll _
  have hkept : ∀ {t' b slot}, t' ≠ t → slot ∈ chains t' b →
      cleared.holder slot = pool.holder slot := by
    intro t' b slot ht hslot
    rw [hholder, if_neg (hgiven ht hslot)]
  rw [h.clear_eq t]
  change Arena cleared _ _
  refine ⟨fun t' b => ?_, fun hslot => ?_, fun t' b => ?_, fun hslot hslot' => ?_,
    fun hindex => ?_, fun hs hindex => ?_, fun t' => ?_, ?_, ?_, ?_, ?_, ?_⟩
  · by_cases ht : t' = t
    · subst ht
      simp [PatchPool.Linked, PatchTable.empty]
    · rw [Function.update_of_ne ht, Function.update_of_ne ht]
      refine (h.linked t' b).congr fun slot hslot => ?_
      rw [hslots, if_neg (hgiven ht hslot)]
  · obtain ⟨ht, hslot⟩ := hother hslot
    rw [hkept ht hslot]
    exact h.held hslot
  · by_cases ht : t' = t
    · subst ht
      simp
    · rw [Function.update_of_ne ht, List.map_congr_left fun slot hslot => hkept ht hslot]
      exact h.nodup t' b
  · exact h.unshared (hother hslot).2 (hother hslot').2
  · rw [hholder] at hindex
    split at hindex
    · cases hindex
    next hout =>
    obtain ⟨t', b, hmem⟩ := h.covered hindex
    have ht : t' ≠ t := by
      rintro rfl
      exact hout (mem_slotsOf.mpr ⟨b, hmem⟩)
    exact ⟨t', b, by rwa [Function.update_of_ne ht]⟩
  · rw [hslots] at hs
    split at hs
    · obtain ⟨s', _, rfl⟩ := Option.map_eq_some_iff.mp hs
      rfl
    · exact h.loose hs hindex
  · by_cases ht : t' = t
    · subst ht
      simp [PatchTable.empty]
    · rw [Function.update_of_ne ht, Function.update_of_ne ht]
      exact h.size_eq t'
  · rw [hused, h.used_eq_sum, h.length_slotsOf t, ← size_add_sum_cleared t, Nat.add_sub_cancel_left]
  · have htaken : cleared.taken.card = pool.taken.card - (tables t).size :=
      h.card_taken_giveAll t
    rw [hused, htaken, h.length_slotsOf, h.used_eq_card]
  · exact hcapacity.le.trans h.capacity_le
  · rw [hcursor, hcapacity]
    exact h.cursor_lt
  · intro hexhausted
    cases hexhausted

end HardSector.Arena
