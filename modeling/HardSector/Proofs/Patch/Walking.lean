import HardSector.Proofs.Patch.Reports

/-!
# Walks along chains

The tables of a pool hang on disjoint chains, on which every taken slot lies once. So a search
that follows the links comes to an end, and so does giving a table back: no chain goes round, none
leads out of the pool, and every slot that is given back was counted as used until then. There is
a free slot exactly as long as fewer slots are used than there are.
-/

namespace HardSector

namespace PatchPool

variable {pool : PatchPool}

/-! ## Searching -/

/-- Following the links from `head` comes to the slot of a sector or to the end of the chain, with
no other bound on the number of steps. -/
inductive Finds (pool : PatchPool) (index : UInt16) : Option UInt16 → Option Nat → Prop
  | missing : Finds pool index none none
  | here {link : UInt16} {s : PatchSlot} : pool.slots[link.toNat]? = some s →
      s.index = some index → Finds pool index (some link) (some link.toNat)
  | beyond {link : UInt16} {s : PatchSlot} {result : Option Nat} :
      pool.slots[link.toNat]? = some s → s.index ≠ some index → Finds pool index s.next result →
      Finds pool index (some link) result

/-- A walk along a chain comes to the first slot of the sector. -/
theorem Linked.finds {head : Option UInt16} {chain : List Nat} (index : UInt16)
    (h : pool.Linked head chain) :
    pool.Finds index head (chain.find? fun slot => decide (pool.holder slot = some index)) := by
  induction chain generalizing head with
  | nil =>
    obtain rfl : head = none := h
    exact .missing
  | cons first rest ih =>
    obtain ⟨link, s, rfl, rfl, hs, hrest⟩ := h
    have hholder : pool.holder link.toNat = s.index := by simp [holder, hs]
    rw [List.find?_cons, hholder]
    by_cases hindex : s.index = some index
    · rw [decide_eq_true hindex]
      exact .here hs hindex
    · rw [decide_eq_false hindex]
      exact .beyond hs hindex (ih hrest)

/-- There is one walk only. -/
theorem Finds.unique {index : UInt16} {head : Option UInt16} {result result' : Option Nat}
    (h : pool.Finds index head result) (h' : pool.Finds index head result') :
    result = result' := by
  induction h with
  | missing =>
    cases h'
    rfl
  | here hs hindex =>
    cases h' with
    | here => rfl
    | beyond hs' hne =>
      cases hs.symm.trans hs'
      exact absurd hindex hne
  | beyond hs hne _ ih =>
    cases h' with
    | here hs' hindex =>
      cases hs.symm.trans hs'
      exact absurd hindex hne
    | beyond hs' _ hrest =>
      cases hs.symm.trans hs'
      exact ih hrest

/-! ## Giving back -/

/-- Giving slot after slot back along the links from `head` comes to an end. Every slot is a slot
of the pool, and there are used ones left to count down from when its turn comes. -/
inductive Frees : Option UInt16 → PatchPool → Nat → Nat × PatchPool → Prop
  | done {pool : PatchPool} {freed : Nat} : Frees none pool freed (freed, pool)
  | give {link : UInt16} {s : PatchSlot} {pool : PatchPool} {freed : Nat}
      {result : Nat × PatchPool} : pool.slots[link.toNat]? = some s → 0 < pool.used →
      Frees s.next (pool.give link.toNat) (freed + 1) result → Frees (some link) pool freed result

/-- Giving back the chains from several heads, one after the other, comes to an end. -/
inductive FreesAll : List (Option UInt16) → PatchPool → Nat → Nat × PatchPool → Prop
  | done {pool : PatchPool} {freed : Nat} : FreesAll [] pool freed (freed, pool)
  | chain {head : Option UInt16} {heads : List (Option UInt16)} {pool : PatchPool} {freed : Nat}
      {left result : Nat × PatchPool} : Frees head pool freed left →
      FreesAll heads left.2 left.1 result → FreesAll (head :: heads) pool freed result

/-- A chain that visits no slot twice is given back to its end. -/
theorem Linked.frees {head : Option UInt16} {chain : List Nat} (freed : Nat)
    (h : pool.Linked head chain) (hnodup : chain.Nodup) (hused : chain.length ≤ pool.used) :
    Frees head pool freed (freed + chain.length, pool.giveAll chain) := by
  induction chain generalizing head pool freed with
  | nil =>
    obtain rfl : head = none := h
    exact .done
  | cons first rest ih =>
    obtain ⟨link, s, rfl, rfl, hs, hrest⟩ := h
    obtain ⟨hfirst, hnodup⟩ := List.nodup_cons.mp hnodup
    rw [List.length_cons] at hused
    have hgiven : (pool.give link.toNat).used = pool.used - 1 := rfl
    -- What is left of the chain does not pass through the slot that was just given back.
    have hapart : ∀ slot ∈ rest, slot ∉ [link.toNat] := fun slot hslot hmem =>
      hfirst (List.mem_singleton.mp hmem ▸ hslot)
    have hlinked : (pool.give link.toNat).Linked s.next rest := hrest.giveAll hapart
    have hrest := ih (freed + 1) hlinked hnodup (by omega)
    rw [List.length_cons, Nat.add_comm rest.length, ← Nat.add_assoc]
    exact .give hs (by omega) hrest

/-- There is one way to give a chain back. -/
theorem Frees.unique {head : Option UInt16} {pool : PatchPool} {freed : Nat}
    {result result' : Nat × PatchPool} (h : Frees head pool freed result)
    (h' : Frees head pool freed result') : result = result' := by
  induction h with
  | done =>
    cases h'
    rfl
  | give hs _ _ ih =>
    cases h' with
    | give hs' _ hrest =>
      cases hs.symm.trans hs'
      exact ih hrest

/-- There is one way to give several chains back. -/
theorem FreesAll.unique {heads : List (Option UInt16)} {pool : PatchPool} {freed : Nat}
    {result result' : Nat × PatchPool} (h : FreesAll heads pool freed result)
    (h' : FreesAll heads pool freed result') : result = result' := by
  induction h with
  | done =>
    cases h'
    rfl
  | chain hhead _ ih =>
    cases h' with
    | chain hhead' hheads =>
      cases hhead.unique hhead'
      exact ih hheads

/-- Chains that share no slot are all given back to their ends. -/
theorem freesAll_of_linked {heads : List (Option UInt16)} {chains : List (List Nat)} (freed : Nat)
    (h : List.Forall₂ pool.Linked heads chains) (hnodup : chains.flatten.Nodup)
    (hused : chains.flatten.length ≤ pool.used) :
    FreesAll heads pool freed (freed + chains.flatten.length, pool.giveAll chains.flatten) := by
  induction heads generalizing pool chains freed with
  | nil =>
    cases h
    exact .done
  | cons head heads ih =>
    obtain ⟨chain, rest, hhead, hheads, rfl⟩ := List.forall₂_cons_left_iff.mp h
    rw [List.flatten_cons, List.nodup_append] at hnodup
    obtain ⟨hchain, hrest, hdisjoint⟩ := hnodup
    rw [List.flatten_cons, List.length_append] at hused
    have hlinked : List.Forall₂ (pool.giveAll chain).Linked heads rest :=
      Linked.giveAll_of_disjoint hheads hdisjoint
    -- The slots of this chain are not counted any more, and those of the others still are.
    have hleft : rest.flatten.length ≤ (pool.giveAll chain).used := by
      rw [(giveAll_fields pool chain).1]
      omega
    have hfrees := hhead.frees freed hchain (by omega)
    have hfreesAll := ih (freed + chain.length) hlinked hrest hleft
    rw [Nat.add_assoc, ← List.length_append, ← List.flatten_cons, giveAll, giveAll,
      ← List.foldl_append] at hfreesAll
    exact .chain hfrees hfreesAll

end PatchPool

namespace Arena

variable {n : Nat} {pool : PatchPool} {tables : Fin n → PatchTable}
  {chains : Fin n → Fin bucketCount → List Nat}

/-! ## The places of slots -/

/-- The taken slots are those that are on exactly one chain. -/
theorem mem_taken_iff (h : Arena pool tables chains) {slot : Nat} :
    slot ∈ pool.taken ↔ ∃! place : Fin n × Fin bucketCount, slot ∈ chains place.1 place.2 := by
  rw [PatchPool.mem_taken]
  constructor
  · rintro ⟨index, hindex⟩
    obtain ⟨t, b, hslot⟩ := h.covered hindex
    refine ⟨(t, b), hslot, fun place hplace => ?_⟩
    obtain ⟨ht, hb⟩ := h.place_inj hplace hslot
    exact Prod.ext ht hb
  · rintro ⟨⟨t, b⟩, hslot, _⟩
    obtain ⟨index, hindex, _⟩ := h.held hslot
    exact ⟨index, hindex⟩

/-- No sector has two slots on the chains of a table. -/
theorem nodup_holders (h : Arena pool tables chains) (t : Fin n) :
    ((slotsOf chains t).map pool.holder).Nodup := by
  refine (h.nodup_slotsOf t).map_on fun slot hslot slot' hslot' heq => ?_
  obtain ⟨b, hslot⟩ := mem_slotsOf.mp hslot
  obtain ⟨b', hslot'⟩ := mem_slotsOf.mp hslot'
  obtain ⟨index, hindex, rfl⟩ := h.held hslot
  obtain ⟨index', hindex', rfl⟩ := h.held hslot'
  -- Slots of one sector are on the chain of its bucket, where no other has the same sector.
  cases hindex.symm.trans (heq.trans hindex')
  exact List.inj_on_of_nodup_map (h.nodup t _) hslot hslot' heq

/-- A free slot of the pool leads nowhere. -/
theorem next_of_free (h : Arena pool tables chains) {slot : Nat}
    (hslot : slot < pool.capacity) (hfree : pool.holder slot = none) :
    (pool.slots[slot]?).map PatchSlot.next = some none := by
  have hs : pool.slots[slot]? = some pool.slots[slot] := Array.getElem?_eq_getElem hslot
  rw [PatchPool.holder, hs, Option.bind_some] at hfree
  rw [hs, Option.map_some, h.loose hs hfree]

/-! ## What the loops come to -/

/-- The search along a chain ends with what is found. -/
theorem finds_iff (h : Arena pool tables chains) {t : Fin n} {index : UInt16}
    {result : Option Nat} :
    pool.Finds index ((tables t).head index) result ↔ result = pool.find (tables t) index := by
  have hfinds : pool.Finds index ((tables t).head index) (pool.find (tables t) index) := by
    rw [h.find_eq_find?]
    exact (h.linked t (PatchTable.bucket index)).finds index
  constructor
  · intro hresult
    exact hresult.unique hfinds
  · rintro rfl
    exact hfinds

/-- Giving back the chains of a table ends with the count and the pool that clearing leaves. -/
theorem freesAll_iff (h : Arena pool tables chains) {t : Fin n} {result : Nat × PatchPool} :
    PatchPool.FreesAll (tables t).heads.toList pool 0 result ↔
      result = ((tables t).size, pool.giveAll (slotsOf chains t)) := by
  have hused : (slotsOf chains t).length ≤ pool.used := by
    rw [h.length_slotsOf]
    exact h.size_le_used t
  have hfrees := PatchPool.freesAll_of_linked 0 (h.linked_heads t) (h.nodup_slotsOf t) hused
  rw [Nat.zero_add, ← slotsOf, h.length_slotsOf] at hfrees
  constructor
  · intro hresult
    exact hresult.unique hfrees
  · rintro rfl
    exact hfrees

/-- There is a free slot exactly if fewer slots are used than there are. -/
theorem exists_free?_iff (h : Arena pool tables chains) :
    (∃ slot, pool.free? = some slot) ↔ pool.used < pool.capacity := by
  constructor
  · rintro ⟨slot, hslot⟩
    obtain ⟨hlt, hfree⟩ := PatchPool.free_of_free? hslot
    exact h.used_lt hlt hfree
  · intro hused
    cases hslot : pool.free? with
    | some slot => exact ⟨slot, rfl⟩
    | none => exact absurd (h.used_of_free?_eq_none hslot) hused.ne

end Arena

/-- For any capacity, any number of tables and any operations on them, the links from the heads of
the tables run along chains that visit slots of sectors of their bucket only, no sector twice in
one table, and each taken slot on one chain of one table; free slots lead nowhere, and the counts
and the cursor agree with that. So a search and a clearing come to an end, with what the pool
answers and without counting below zero, links hold every slot number, and a slot is to be had
exactly if not all are used. -/
theorem tables_hang_on_disjoint_chains (n capacity : Nat) (ops : List (PoolOperation n)) :
    let p := Run.final PooledTables.step (.start n capacity) ops
    p.pool.capacity = min capacity 65535 ∧ ∃ chains : Fin n → Fin bucketCount → List Nat,
      (∀ t, List.Forall₂ p.pool.Linked (p.tables t).heads.toList (List.ofFn (chains t))) ∧
      (∀ t b, ∀ slot ∈ chains t b, slot < p.pool.capacity ∧
        ∃ index, p.pool.holder slot = some index ∧ index.toNat % 64 = b.val) ∧
      (∀ t, (Arena.slotsOf chains t).Nodup ∧
        ((Arena.slotsOf chains t).map p.pool.holder).Nodup) ∧
      (∀ slot, (∃ index, p.pool.holder slot = some index) ↔
        ∃! place : Fin n × Fin bucketCount, slot ∈ chains place.1 place.2) ∧
      (∀ slot < p.pool.capacity, p.pool.holder slot = none →
        (p.pool.slots[slot]?).map PatchSlot.next = some none) ∧
      p.pool.used = p.pool.taken.card ∧ p.pool.used = ∑ t, (p.tables t).size ∧
      (p.pool.cursor < p.pool.capacity ∨ p.pool.capacity = 0 ∧ p.pool.cursor = 0) ∧
      (p.pool.exhausted = true → p.pool.used = p.pool.capacity) ∧
      (∀ t index result, p.pool.Finds index ((p.tables t).head index) result ↔
        result = p.pool.find (p.tables t) index) ∧
      (∀ t, ∃ freed left,
        (∀ result, PatchPool.FreesAll (p.tables t).heads.toList p.pool 0 result ↔
          result = (freed, left)) ∧
        p.pool.clear (p.tables t) = ⟨freed, { left with exhausted := false }, .empty, []⟩) ∧
      (∀ slot < p.pool.capacity, (UInt16.ofNat slot).toNat = slot) ∧
      (∀ slot, p.pool.free? = some slot → slot < p.pool.capacity ∧ p.pool.holder slot = none) ∧
      ((∃ slot, p.pool.free? = some slot) ↔ p.pool.used < p.pool.capacity) := by
  intro p
  have hcapacity : p.pool.capacity = min capacity 65535 := by
    obtain ⟨_, hfinal⟩ :=
      Run.simulate (fun _ _ op h => Represents.step h op) (Represents.start n capacity) ops
    exact hfinal.capacity.trans (PatchMaps.final_counters _ ops).1
  obtain ⟨chains, harena⟩ : ∃ chains, Arena p.pool p.tables chains :=
    PooledTables.arena_final capacity ops
  have hvisits : ∀ t b, ∀ slot ∈ chains t b, slot < p.pool.capacity ∧
      ∃ index, p.pool.holder slot = some index ∧ index.toNat % 64 = b.val := by
    intro t b slot hslot
    obtain ⟨index, hindex, hbucket⟩ := harena.held hslot
    exact ⟨PatchPool.lt_capacity_of_holder hindex, index, hindex, congrArg Fin.val hbucket⟩
  have hclear : ∀ t, ∃ freed left,
      (∀ result, PatchPool.FreesAll (p.tables t).heads.toList p.pool 0 result ↔
        result = (freed, left)) ∧
      p.pool.clear (p.tables t) = ⟨freed, { left with exhausted := false }, .empty, []⟩ :=
    fun t => ⟨_, _, fun _ => harena.freesAll_iff, harena.clear_eq t⟩
  refine ⟨hcapacity, chains, harena.linked_heads, hvisits,
    fun t => ⟨harena.nodup_slotsOf t, harena.nodup_holders t⟩, fun slot => ?_,
    fun slot hslot hfree => harena.next_of_free hslot hfree, harena.used_eq_card,
    harena.used_eq_sum, harena.cursor_lt, harena.full_of_exhausted,
    fun t index result => harena.finds_iff, hclear,
    fun slot hslot => PatchPool.toNat_link harena.capacity_le hslot,
    fun slot hslot => PatchPool.free_of_free? hslot, harena.exists_free?_iff⟩
  rw [← PatchPool.mem_taken]
  exact harena.mem_taken_iff

/-- A slot that a clearing has given back comes before the other one on a chain of another table,
and the pool is full again. -/
theorem tables_hang_on_disjoint_chains_in_full_pool :
    let ops : List (PoolOperation 2) := [.store 0 1 #[1], .store 1 65 #[2], .clear 0,
      .store 1 1 #[3], .store 0 7 #[4]]
    let p := Run.final PooledTables.step (.start 2 2) ops
    p.pool.exhausted = true ∧ p.pool.used = p.pool.capacity ∧
      p.pool.Finds 65 ((p.tables 1).head 65) (some 1) ∧
      p.pool.Finds 129 ((p.tables 1).head 129) none ∧ ¬∃ slot, p.pool.free? = some slot := by
  intro ops p
  obtain ⟨_, _, _, _, _, _, _, _, _, _, hfull, hfinds, _, _, _, hfree⟩ :=
    tables_hang_on_disjoint_chains 2 2 ops
  have hmark : p.pool.exhausted = true := by decide +kernel
  have hused : p.pool.used = p.pool.capacity := hfull hmark
  have hfirst : p.pool.find (p.tables 1) 65 = some 1 := by decide +kernel
  have hnone : p.pool.find (p.tables 1) 129 = none := by decide +kernel
  refine ⟨hmark, hused, (hfinds 1 65 (some 1)).mpr hfirst.symm,
    (hfinds 1 129 none).mpr hnone.symm, fun hslot => ?_⟩
  exact absurd (hfree.mp hslot) (Nat.not_lt_of_le hused.ge)

end HardSector
