import HardSector.Patch.Pool
import Mathlib.Data.Finset.Card

/-!
# Chains of patch slots

The patches of a bucket are found by following links from slot to slot. A chain
that is written down as the list of the slots it visits makes the search a search
in that list, and giving the chain back a pass over it. Neither then depends on the
bound on its steps. The search for a free slot is treated beside them.
-/

namespace HardSector.PatchPool

/-- The sector that a slot belongs to, if there is such a slot and it is taken. -/
def holder (pool : PatchPool) (slot : Nat) : Option UInt16 :=
  (pool.slots[slot]?).bind PatchSlot.index

/-- Following the links from `head` visits exactly the listed slots, in this order, and ends. -/
def Linked (pool : PatchPool) : Option UInt16 → List Nat → Prop
  | head, [] => head = none
  | head, slot :: rest =>
    ∃ link s, head = some link ∧ link.toNat = slot ∧ pool.slots[slot]? = some s ∧
      pool.Linked s.next rest

/-- A taken slot is one of the slots of the pool. -/
theorem lt_capacity_of_holder {pool : PatchPool} {slot : Nat} {index : UInt16}
    (h : pool.holder slot = some index) : slot < pool.capacity := by
  obtain ⟨s, hs, _⟩ := Option.bind_eq_some_iff.mp h
  exact (Array.getElem?_eq_some_iff.mp hs).1

/-- No slot number is too large for a link of sixteen bits. -/
theorem toNat_link {pool : PatchPool} (hlimit : pool.capacity ≤ capacityLimit) {slot : Nat}
    (hslot : slot < pool.capacity) : (UInt16.ofNat slot).toNat = slot :=
  UInt16.toNat_ofNat_of_lt' (Nat.lt_trans (Nat.lt_of_lt_of_le hslot hlimit) (by decide))

/-- A chain visits only slots of the pool. -/
theorem Linked.lt_capacity {pool : PatchPool} {head : Option UInt16} {chain : List Nat}
    (h : pool.Linked head chain) : ∀ slot ∈ chain, slot < pool.capacity := by
  induction chain generalizing head with
  | nil => simp
  | cons first rest ih =>
    obtain ⟨link, s, _, _, hs, hrest⟩ := h
    intro slot hslot
    rcases List.mem_cons.mp hslot with rfl | hslot
    · exact (Array.getElem?_eq_some_iff.mp hs).1
    · exact ih hrest slot hslot

/-- A chain depends only on the links of the slots it visits. -/
theorem Linked.congr {pool other : PatchPool} {head : Option UInt16} {chain : List Nat}
    (h : pool.Linked head chain)
    (hnext : ∀ slot ∈ chain,
      (other.slots[slot]?).map PatchSlot.next = (pool.slots[slot]?).map PatchSlot.next) :
    other.Linked head chain := by
  induction chain generalizing head with
  | nil => exact h
  | cons first rest ih =>
    obtain ⟨link, s, hhead, hlink, hs, hrest⟩ := h
    have hfirst := hnext first (by simp)
    rw [hs, Option.map_some] at hfirst
    obtain ⟨s', hs', hnext'⟩ := Option.map_eq_some_iff.mp hfirst
    refine ⟨link, s', hhead, hlink, hs', ?_⟩
    rw [hnext']
    exact ih hrest fun slot hslot => hnext slot (List.mem_cons_of_mem _ hslot)

/-- A list of different numbers below a bound is no longer than the bound. -/
theorem length_le_of_nodup_of_lt {chain : List Nat} {bound : Nat} (hnodup : chain.Nodup)
    (hlt : ∀ slot ∈ chain, slot < bound) : chain.length ≤ bound := by
  have hsub : chain ⊆ List.range bound := fun slot hslot => List.mem_range.mpr (hlt slot hslot)
  simpa using (hnodup.subperm hsub).length_le

/-- The search along a chain is the search in the list of its slots. -/
theorem findFrom_eq_find? {pool : PatchPool} {head : Option UInt16} {chain : List Nat}
    {fuel : Nat} (index : UInt16) (h : pool.Linked head chain) (hfuel : chain.length ≤ fuel) :
    pool.findFrom index fuel head =
      chain.find? fun slot => decide (pool.holder slot = some index) := by
  induction chain generalizing head fuel with
  | nil =>
    have hhead : head = none := h
    cases fuel with
    | zero => rfl
    | succ fuel => rw [hhead]; rfl
  | cons first rest ih =>
    obtain ⟨link, s, rfl, rfl, hs, hrest⟩ := h
    obtain ⟨fuel, rfl⟩ : ∃ k, fuel = k + 1 := ⟨fuel - 1, by simp at hfuel; omega⟩
    have hholder : pool.holder link.toNat = s.index := by simp [holder, hs]
    simp only [findFrom, hs, List.find?_cons, hholder]
    by_cases hindex : s.index = some index
    · simp [hindex]
    · simp only [hindex, if_false, decide_false]
      exact ih hrest (by simpa using hfuel)

/-! ## Free slots -/

/-- A slot is free when it is a slot of the pool that belongs to no sector. -/
theorem isFree_iff {pool : PatchPool} {slot : Nat} :
    pool.isFree slot = true ↔ slot < pool.capacity ∧ pool.holder slot = none := by
  unfold isFree holder capacity
  cases hs : pool.slots[slot]? with
  | none =>
    have hge := Array.getElem?_eq_none_iff.mp hs
    simp only [Bool.false_eq_true, Option.bind_none, and_true, false_iff]
    omega
  | some s =>
    have hlt := (Array.getElem?_eq_some_iff.mp hs).1
    simp [hlt]

/-- A slot that the search for a free one returns is free. -/
theorem isFree_of_freeFrom {pool : PatchPool} {count start slot : Nat}
    (h : pool.freeFrom count start = some slot) : pool.isFree slot = true := by
  induction count generalizing start with
  | zero => simp [freeFrom] at h
  | succ count ih =>
    unfold freeFrom at h
    split at h
    · next hfree => simpa [← Option.some.inj h] using hfree
    · exact ih h

/-- A search that finds nothing has met no free slot, going round at the end. -/
theorem isFree_of_freeFrom_eq_none {pool : PatchPool} {count start : Nat}
    (h : pool.freeFrom count start = none) (hstart : start < pool.capacity) :
    ∀ k < count, pool.isFree ((start + k) % pool.capacity) = false := by
  induction count generalizing start with
  | zero => omega
  | succ count ih =>
    unfold freeFrom at h
    split at h
    · cases h
    next hfree =>
    intro k hk
    cases k with
    | zero => simpa [Nat.mod_eq_of_lt hstart] using hfree
    | succ k =>
      have hnext := ih h (Nat.mod_lt _ (by omega)) k (by omega)
      rwa [Nat.mod_add_mod, Nat.add_assoc, Nat.add_comm 1 k] at hnext

/-- The search for a free slot returns one. -/
theorem free_of_free? {pool : PatchPool} {slot : Nat} (h : pool.free? = some slot) :
    slot < pool.capacity ∧ pool.holder slot = none :=
  isFree_iff.mp (isFree_of_freeFrom h)

/-- The search for a free slot goes through all slots, wherever it starts. -/
theorem holder_of_free?_eq_none {pool : PatchPool} (h : pool.free? = none) {slot : Nat}
    (hslot : slot < pool.capacity) : ∃ index, pool.holder slot = some index := by
  have hstart : pool.cursor % pool.capacity < pool.capacity := Nat.mod_lt _ (by omega)
  -- The slot lies this far behind the start, once round at most.
  let k := (slot + (pool.capacity - pool.cursor % pool.capacity)) % pool.capacity
  have hk : k < pool.capacity := Nat.mod_lt _ (by omega)
  have hround : (pool.cursor % pool.capacity + k) % pool.capacity = slot := by
    have hsum : pool.cursor % pool.capacity +
        (slot + (pool.capacity - pool.cursor % pool.capacity)) = slot + pool.capacity := by omega
    rw [Nat.add_mod_mod, hsum, Nat.add_mod_right, Nat.mod_eq_of_lt hslot]
  have hfree := isFree_of_freeFrom_eq_none h hstart k hk
  rw [hround] at hfree
  cases hholder : pool.holder slot with
  | some index => exact ⟨index, rfl⟩
  | none =>
    rw [isFree_iff.mpr ⟨hslot, hholder⟩] at hfree
    cases hfree

/-! ## Giving chains back -/

/-- Take the listed slots from their sectors. -/
def giveAll (pool : PatchPool) (chain : List Nat) : PatchPool := chain.foldl give pool

/-- A slot that is given back belongs to nothing and leads nowhere; the others stay. -/
theorem slots_give (pool : PatchPool) (slot i : Nat) :
    (pool.give slot).slots[i]? =
      if i = slot then (pool.slots[i]?).map fun s => { s with index := none, next := none }
      else pool.slots[i]? := by
  simp only [give, Array.getElem?_modify, eq_comm (a := slot)]

/-- What is left of each slot once the listed ones are given back. -/
theorem slots_giveAll (pool : PatchPool) (chain : List Nat) (i : Nat) :
    (pool.giveAll chain).slots[i]? =
      if i ∈ chain then (pool.slots[i]?).map fun s => { s with index := none, next := none }
      else pool.slots[i]? := by
  induction chain generalizing pool with
  | nil => simp [giveAll]
  | cons slot rest ih =>
    have hcons : pool.giveAll (slot :: rest) = (pool.give slot).giveAll rest := rfl
    rw [hcons, ih, slots_give]
    by_cases hslot : i = slot <;> by_cases hrest : i ∈ rest <;>
      simp [hslot, hrest, Option.map_map, Function.comp_def]

/-- Giving slots back leaves all other fields of a pool alone and counts each slot once. -/
theorem giveAll_fields (pool : PatchPool) (chain : List Nat) :
    (pool.giveAll chain).used = pool.used - chain.length ∧
      (pool.giveAll chain).capacity = pool.capacity ∧
      (pool.giveAll chain).cursor = pool.cursor ∧
      (pool.giveAll chain).droppedWrites = pool.droppedWrites ∧
      (pool.giveAll chain).reports = pool.reports := by
  induction chain generalizing pool with
  | nil => simp [giveAll]
  | cons slot rest ih =>
    have hcons : pool.giveAll (slot :: rest) = (pool.give slot).giveAll rest := rfl
    obtain ⟨hused, hcapacity, hcursor, hdropped, hreports⟩ := ih (pool.give slot)
    rw [hcons]
    refine ⟨?_, by rw [hcapacity, capacity_give], by rw [hcursor]; rfl, by rw [hdropped]; rfl,
      by rw [hreports]; rfl⟩
    rw [hused, List.length_cons]
    simp only [give]
    omega

/-- Freeing a chain gives back exactly its slots. -/
theorem freeChain_eq {pool : PatchPool} {head : Option UInt16} {chain : List Nat} {fuel : Nat}
    (freed : Nat) (h : pool.Linked head chain) (hnodup : chain.Nodup)
    (hfuel : chain.length ≤ fuel) :
    freeChain fuel head pool freed = (freed + chain.length, pool.giveAll chain) := by
  induction chain generalizing head pool fuel freed with
  | nil =>
    have hhead : head = none := h
    subst hhead
    cases fuel <;> rfl
  | cons first rest ih =>
    obtain ⟨link, s, rfl, rfl, hs, hrest⟩ := h
    obtain ⟨fuel, rfl⟩ : ∃ k, fuel = k + 1 := ⟨fuel - 1, by simp at hfuel; omega⟩
    obtain ⟨hfirst, hnodup⟩ := List.nodup_cons.mp hnodup
    -- The rest of the chain does not pass through the slot that has just been given back.
    have hlinked : (pool.give link.toNat).Linked s.next rest := by
      apply hrest.congr
      intro slot hslot
      have hne : slot ≠ link.toNat := fun heq => hfirst (heq ▸ hslot)
      rw [slots_give, if_neg hne]
    simp only [freeChain, hs]
    rw [ih (freed + 1) hlinked hnodup (by simpa using hfuel)]
    simp [giveAll, Nat.add_comm, Nat.add_left_comm]

/-- Giving slots back does not disturb a chain that visits none of them. -/
theorem Linked.giveAll {pool : PatchPool} {head : Option UInt16} {chain given : List Nat}
    (h : pool.Linked head chain) (hdisjoint : ∀ slot ∈ chain, slot ∉ given) :
    (pool.giveAll given).Linked head chain := by
  apply h.congr
  intro slot hslot
  rw [slots_giveAll, if_neg (hdisjoint slot hslot)]

/-- Giving slots back does not disturb chains that visit none of them. -/
theorem Linked.giveAll_of_disjoint {pool : PatchPool} {heads : List (Option UInt16)}
    {chains : List (List Nat)} {given : List Nat} (h : List.Forall₂ pool.Linked heads chains)
    (hdisjoint : ∀ slot ∈ given, ∀ other ∈ chains.flatten, slot ≠ other) :
    List.Forall₂ (pool.giveAll given).Linked heads chains := by
  rw [List.forall₂_iff_get] at h ⊢
  refine ⟨h.1, fun i hi hi' => (h.2 i hi hi').giveAll fun slot hslot hgiven => ?_⟩
  have hmem : slot ∈ chains.flatten :=
    List.mem_flatten.mpr ⟨chains.get ⟨i, hi'⟩, List.get_mem _ _, hslot⟩
  exact hdisjoint slot hgiven slot hmem rfl

/-- Freeing several chains that share no slot gives back exactly the slots of them all. -/
theorem freeChains_eq {pool : PatchPool} {heads : List (Option UInt16)}
    {chains : List (List Nat)} (freed : Nat) (h : List.Forall₂ pool.Linked heads chains)
    (hnodup : chains.flatten.Nodup) :
    freeChains heads pool freed =
      (freed + chains.flatten.length, pool.giveAll chains.flatten) := by
  induction heads generalizing pool chains freed with
  | nil =>
    cases h
    rfl
  | cons head heads ih =>
    obtain ⟨chain, rest, hhead, hheads, rfl⟩ := List.forall₂_cons_left_iff.mp h
    rw [List.flatten_cons, List.nodup_append] at hnodup
    obtain ⟨hchain, hrest, hdisjoint⟩ := hnodup
    have hlength := length_le_of_nodup_of_lt hchain hhead.lt_capacity
    have hlinked : List.Forall₂ (pool.giveAll chain).Linked heads rest :=
      Linked.giveAll_of_disjoint hheads hdisjoint
    simp only [freeChains]
    rw [freeChain_eq freed hhead hchain hlength]
    simp only [ih _ hlinked hrest, List.flatten_cons, List.length_append, Nat.add_assoc]
    simp only [giveAll, List.foldl_append]

/-! ## Tables without patches -/

/-- A table without patches finds none in any pool. -/
theorem patch_empty (pool : PatchPool) (index : UInt16) : pool.patch .empty index = none := by
  have hhead : PatchTable.empty.head index = none := by
    simp [PatchTable.head, PatchTable.empty]
  unfold patch find
  rw [hhead]
  cases pool.capacity <;> rfl

/-- A table without patches gives nothing back. -/
theorem clear_empty (pool : PatchPool) :
    (pool.clear .empty).pool = { pool with exhausted := false } := by
  have hheads : PatchTable.empty.heads.toList = List.replicate bucketCount none :=
    Vector.toList_replicate
  have hchain : freeChain pool.capacity none pool 0 = (0, pool) := by
    cases pool.capacity <;> rfl
  have hfree (count : Nat) : freeChains (List.replicate count none) pool 0 = (0, pool) := by
    induction count with
    | zero => rfl
    | succ count ih =>
      rw [List.replicate_succ, freeChains, hchain]
      exact ih
  unfold clear
  rw [hheads, hfree]

end HardSector.PatchPool
