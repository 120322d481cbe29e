import HardSector.Proofs.Patch.Effect
import HardSector.Proofs.Run

/-!
# Tables are bounded finite maps

A pool and the tables that use it answer every run of operations as finite maps from
sectors to patches do, one for each table, with one bound on the number of all patches.
How slots are chosen, linked and used again cannot be told from the answers.
-/

namespace HardSector

/-- Something done to a table of a pool. -/
inductive PoolOperation (n : Nat) where
  | store (table : Fin n) (index : UInt16) (data : Bytes)
  | obtain (table : Fin n) (index : UInt16)
  | find (table : Fin n) (index : UInt16)
  | patch (table : Fin n) (index : UInt16)
  | clear (table : Fin n)

/-- What is answered to an operation. A slot is told by the bytes in it. -/
inductive PoolAnswer where
  | stored (kept : Bool)
  | slot (contents : Option (Option (Vector UInt8 sectorSize)))
  | patch (contents : Option (Vector UInt8 sectorSize))
  | freed (count : Nat)
deriving DecidableEq

/-- A pool with the tables that use it. -/
structure PooledTables (n : Nat) where
  pool : PatchPool
  tables : Fin n → PatchTable

namespace PooledTables

variable {n : Nat}

/-- A fresh pool of some capacity, and tables without patches. -/
def start (n capacity : Nat) : PooledTables n := ⟨.ofCapacity capacity, fun _ => .empty⟩

/-- What an operation has left of the pool and of one table. -/
def update {α : Type} (p : PooledTables n) (t : Fin n) (change : PatchPool.Change α) :
    PooledTables n :=
  ⟨change.pool, Function.update p.tables t change.table⟩

/-- The bytes in a slot. -/
def contents (pool : PatchPool) (slot : Option Nat) :
    Option (Option (Vector UInt8 sectorSize)) :=
  slot.map fun slot => (pool.slots[slot]?).map PatchSlot.data

/-- Do an operation. -/
def step (p : PooledTables n) : PoolOperation n → PoolAnswer × PooledTables n
  | .store t index data =>
    let change := p.pool.store (p.tables t) index data
    (.stored change.result, p.update t change)
  | .obtain t index =>
    let change := p.pool.obtain (p.tables t) index
    (.slot (contents change.pool change.result), p.update t change)
  | .find t index => (.slot (contents p.pool (p.pool.find (p.tables t) index)), p)
  | .patch t index => (.patch (p.pool.patch (p.tables t) index), p)
  | .clear t =>
    let change := p.pool.clear (p.tables t)
    (.freed change.result, p.update t change)

end PooledTables

/-- Finite maps from sectors to patches, a bound on the number of all entries, and the number of
stores that were refused. -/
structure PatchMaps (n : Nat) where
  bound : Nat
  maps : Fin n → Std.ExtTreeMap UInt16 (Vector UInt8 sectorSize)
  refused : Nat := 0

namespace PatchMaps

variable {n : Nat}

/-- Empty maps under a bound. -/
def start (n bound : Nat) : PatchMaps n := { bound := bound, maps := fun _ => ∅ }

/-- The number of all entries. -/
def total (m : PatchMaps n) : Nat := ∑ t, (m.maps t).size

/-- Give a sector an entry in place of the one it has, if any. -/
def insert (m : PatchMaps n) (t : Fin n) (index : UInt16) (value : Vector UInt8 sectorSize) :
    PatchMaps n :=
  { m with maps := Function.update m.maps t ((m.maps t).insert index value) }

/-- A sector whose first bytes are those of `data`, as far as they fit, and whose other bytes are
those of `old`. -/
def replace (old : Vector UInt8 sectorSize) (data : Bytes) : Vector UInt8 sectorSize :=
  ⟨data.extract 0 sectorSize ++ old.toArray.extract data.size sectorSize, by
    simp only [Array.size_append, Array.size_extract, Vector.size_toArray]
    omega⟩

/-- Do an operation. -/
def step (m : PatchMaps n) : PoolOperation n → PoolAnswer × PatchMaps n
  | .store t index data =>
    match (m.maps t)[index]? with
    | some old => (.stored true, m.insert t index (replace old data))
    | none =>
      if m.total < m.bound then
        (.stored true, m.insert t index (replace (Vector.replicate sectorSize 0) data))
      else (.stored false, { m with refused := m.refused + 1 })
  | .obtain t index =>
    match (m.maps t)[index]? with
    | some old => (.slot (some (some old)), m)
    | none =>
      if m.total < m.bound then
        (.slot (some (some (Vector.replicate sectorSize 0))),
          m.insert t index (Vector.replicate sectorSize 0))
      else (.slot none, m)
  | .find t index => (.slot ((m.maps t)[index]?.map some), m)
  | .patch t index => (.patch (m.maps t)[index]?, m)
  | .clear t => (.freed (m.maps t).size, { m with maps := Function.update m.maps t ∅ })

end PatchMaps

/-- Giving a sector the entry it has changes nothing. -/
theorem PatchMaps.insert_self {n : Nat} {m : PatchMaps n} {t : Fin n} {index : UInt16}
    {value : Vector UInt8 sectorSize} (hentry : (m.maps t)[index]? = some value) :
    m.insert t index value = m := by
  have hmap : (m.maps t).insert index value = m.maps t := by
    apply Std.ExtTreeMap.ext_getElem?
    intro index'
    rw [Std.ExtTreeMap.getElem?_insert]
    split
    · next heq => rw [← Std.LawfulEqCmp.eq_of_compare heq, hentry]
    · rfl
  rw [insert, hmap, Function.update_eq_self]

/-- Writing over a patch replaces its first bytes. -/
theorem PatchPool.overwrite_eq_replace (old : Vector UInt8 sectorSize) (data : Bytes) :
    overwrite old data = PatchMaps.replace old data := by
  ext i hi
  simp only [overwrite, PatchMaps.replace, Vector.getElem_ofFn, Vector.getElem_mk,
    Array.getElem_append, Array.size_extract, Array.getElem_extract, Vector.getElem_toArray,
    Array.getD_eq_getD_getElem?]
  by_cases hdata : i < data.size
  · rw [dif_pos (by omega), Array.getElem?_eq_getElem hdata]
    simp
  · rw [dif_neg (by omega), Array.getElem?_eq_none (by omega)]
    have hplace : data.size + (i - (min sectorSize data.size - 0)) = i := by omega
    simp only [Option.getD_none, Fin.getElem_fin, hplace]

/-- A pool with its tables stands for finite maps. -/
structure Represents {n : Nat} (p : PooledTables n) (m : PatchMaps n) : Prop where
  arena : ∃ chains, Arena p.pool p.tables chains
  patch : ∀ t index, p.pool.patch (p.tables t) index = (m.maps t)[index]?
  size : ∀ t, (p.tables t).size = (m.maps t).size
  capacity : p.pool.capacity = m.bound
  dropped : p.pool.droppedWrites = m.refused

namespace Represents

variable {n : Nat} {p : PooledTables n} {m : PatchMaps n}

/-- A fresh pool stands for empty maps. -/
theorem start (n capacity : Nat) :
    Represents (.start n capacity) (.start n (min capacity PatchPool.capacityLimit)) := by
  have harena := Arena.fresh n capacity
  refine ⟨⟨_, harena⟩, fun t index => ?_, fun t => ?_, PatchPool.capacity_ofCapacity capacity, rfl⟩
  · rw [PatchMaps.start, Std.ExtTreeMap.getElem?_empty]
    exact PatchPool.patch_ofCapacity capacity index
  · simp [PooledTables.start, PatchMaps.start, PatchTable.empty]

/-- As many slots are taken as there are entries. -/
theorem used_eq (h : Represents p m) : p.pool.used = m.total := by
  obtain ⟨chains, harena⟩ := h.arena
  rw [harena.used_eq_sum, PatchMaps.total]
  exact Finset.sum_congr rfl fun t _ => h.size t

/-- Giving a sector a patch is giving it an entry. -/
theorem gave (h : Represents p m) {α : Type} {t : Fin n} {index : UInt16}
    {value : Vector UInt8 sectorSize} {change : PatchPool.Change α}
    (hgave : Arena.Gave p.pool p.tables t index value change) :
    Represents (p.update t change) (m.insert t index value) := by
  refine ⟨hgave.arena, fun t' index' => (hgave.patch t' index').trans ?_, fun t' => ?_,
    hgave.capacity.trans h.capacity, hgave.dropped.trans h.dropped⟩
  · by_cases ht : t' = t
    · subst ht
      by_cases hindex : index' = index
      · subst hindex
        simp [PatchMaps.insert]
      · rw [if_neg fun heq => hindex heq.2, h.patch]
        simp [PatchMaps.insert, Std.ExtTreeMap.getElem?_insert, Ne.symm hindex]
    · rw [if_neg fun heq => ht heq.1, h.patch]
      simp [PatchMaps.insert, ht]
  · by_cases ht : t' = t
    · subst ht
      have hcontains : (m.maps t').contains index = (p.pool.patch (p.tables t') index).isSome := by
        rw [h.patch, Std.ExtTreeMap.isSome_getElem?_eq_contains]
      simp only [PooledTables.update, PatchMaps.insert, Function.update_self, hgave.size, h.size,
        Std.ExtTreeMap.size_insert, hcontains]
      split <;> rfl
    · simpa [PooledTables.update, PatchMaps.insert, ht] using h.size t'

/-- An operation that finds no room leaves the maps as they are. -/
theorem refused (h : Represents p m) {α : Type} {t : Fin n} {index : UInt16} {drops : Nat}
    {change : PatchPool.Change α}
    (hrefused : Arena.Refused p.pool p.tables t index drops change) :
    Represents (p.update t change) { m with refused := m.refused + drops } := by
  have hupdate : p.update t change = ⟨change.pool, p.tables⟩ := by
    rw [PooledTables.update, hrefused.table, Function.update_eq_self]
  rw [hupdate]
  refine ⟨hrefused.arena, fun t' index' => ?_, h.size, hrefused.capacity.trans h.capacity, ?_⟩
  · exact (hrefused.patch t' index').trans (h.patch t' index')
  · rw [hrefused.dropped, h.dropped]

/-- Clearing a table empties its map and counts its entries. -/
theorem clear (h : Represents p m) (t : Fin n) :
    (p.pool.clear (p.tables t)).result = (m.maps t).size ∧
      Represents (p.update t (p.pool.clear (p.tables t)))
        { m with maps := Function.update m.maps t ∅ } := by
  obtain ⟨chains, harena⟩ := h.arena
  have heq := harena.clear_eq t
  obtain ⟨_, hcapacity, _, hdropped, _⟩ :=
    PatchPool.giveAll_fields p.pool (Arena.slotsOf chains t)
  refine ⟨by rw [heq]; exact h.size t, ⟨_, harena.clear t⟩,
    fun t' index => ?_, fun t' => ?_, ?_, ?_⟩
  · refine (harena.patch_clear t t' index).trans ?_
    by_cases ht : t' = t
    · subst ht
      simp
    · simp [ht, h.patch]
  · by_cases ht : t' = t
    · subst ht
      simp [PooledTables.update, PatchTable.empty]
    · simpa [PooledTables.update, ht] using h.size t'
  · rw [PooledTables.update, heq]
    exact hcapacity.trans h.capacity
  · rw [PooledTables.update, heq]
    exact hdropped.trans h.dropped

/-- The bytes in the slot that is found for a sector are its entry. -/
theorem contents_find (h : Represents p m) (t : Fin n) (index : UInt16) :
    PooledTables.contents p.pool (p.pool.find (p.tables t) index) =
      (m.maps t)[index]?.map some := by
  obtain ⟨chains, harena⟩ := h.arena
  rw [← h.patch]
  unfold PatchPool.patch PooledTables.contents
  cases hfind : p.pool.find (p.tables t) index with
  | none => rfl
  | some slot =>
    have hlt := PatchPool.lt_capacity_of_holder (harena.find_eq_some_iff.mp hfind).2
    have hslot : p.pool.slots[slot]? = some p.pool.slots[slot] := Array.getElem?_eq_getElem hlt
    simp only [Option.map_some, hslot]

/-- A sector gets an entry when it has one or there is room for one more. -/
theorem room (h : Represents p m) {α : Type} {t : Fin n} {index : UInt16}
    {value : Vector UInt8 sectorSize} {change : PatchPool.Change α}
    (hgave : Arena.Gave p.pool p.tables t index value change) :
    (m.maps t)[index]? ≠ none ∨ m.total < m.bound := by
  have hroom := hgave.room
  rwa [h.patch, h.used_eq, h.capacity] at hroom

/-- A sector is refused an entry when it has none and there is no room for one more. -/
theorem full (h : Represents p m) {α : Type} {t : Fin n} {index : UInt16} {drops : Nat}
    {change : PatchPool.Change α}
    (hrefused : Arena.Refused p.pool p.tables t index drops change) :
    (m.maps t)[index]? = none ∧ ¬m.total < m.bound := by
  have hnone := hrefused.unpatched
  have hfull := hrefused.full
  rw [h.patch] at hnone
  rw [h.used_eq, h.capacity] at hfull
  exact ⟨hnone, by omega⟩

/-- Stores are answered alike. -/
theorem step_store (h : Represents p m) (t : Fin n) (index : UInt16) (data : Bytes) :
    (p.step (.store t index data)).1 = (m.step (.store t index data)).1 ∧
      Represents (p.step (.store t index data)).2 (m.step (.store t index data)).2 := by
  obtain ⟨chains, harena⟩ := h.arena
  simp only [PooledTables.step, PatchMaps.step]
  cases hkept : (p.pool.store (p.tables t) index data).result with
  | true =>
    have hgave := harena.store_kept hkept
    have hnext := h.gave hgave
    rw [h.patch, PatchPool.overwrite_eq_replace] at hnext
    cases hentry : (m.maps t)[index]? with
    | some old =>
      rw [hentry] at hnext
      exact ⟨rfl, hnext⟩
    | none =>
      rw [hentry] at hnext
      have hroom := (h.room hgave).resolve_left (not_not.mpr hentry)
      rw [if_pos hroom]
      exact ⟨rfl, hnext⟩
  | false =>
    have hrefused := harena.store_dropped hkept
    obtain ⟨hnone, hfull⟩ := h.full hrefused
    rw [hnone]
    simp only [if_neg hfull, true_and]
    exact h.refused hrefused

/-- Slots are obtained alike. -/
theorem step_obtain (h : Represents p m) (t : Fin n) (index : UInt16) :
    (p.step (.obtain t index)).1 = (m.step (.obtain t index)).1 ∧
      Represents (p.step (.obtain t index)).2 (m.step (.obtain t index)).2 := by
  obtain ⟨chains, harena⟩ := h.arena
  simp only [PooledTables.step, PatchMaps.step]
  cases hslot : (p.pool.obtain (p.tables t) index).result with
  | some slot =>
    obtain ⟨hgave, hfind⟩ := harena.obtain_some hslot
    have hnext := h.gave hgave
    have hcontents := hnext.contents_find t index
    simp only [PooledTables.update, Function.update_self, hfind] at hcontents
    rw [hcontents]
    cases hentry : (m.maps t)[index]? with
    | some old =>
      rw [h.patch, hentry, Option.getD_some, PatchMaps.insert_self hentry] at hnext
      exact ⟨by simp [PatchMaps.insert, h.patch, hentry], hnext⟩
    | none =>
      have hroom := (h.room hgave).resolve_left (not_not.mpr hentry)
      rw [if_pos hroom]
      rw [h.patch, hentry] at hnext
      exact ⟨by simp [PatchMaps.insert, h.patch, hentry, PatchPool.blankPatch], hnext⟩
  | none =>
    have hrefused := harena.obtain_none hslot
    obtain ⟨hnone, hfull⟩ := h.full hrefused
    simp only [hnone, if_neg hfull]
    exact ⟨rfl, h.refused hrefused⟩

/-- One operation is answered alike and keeps the maps that the tables stand for. -/
theorem step (h : Represents p m) (op : PoolOperation n) :
    (p.step op).1 = (m.step op).1 ∧ Represents (p.step op).2 (m.step op).2 := by
  cases op with
  | store t index data => exact h.step_store t index data
  | obtain t index => exact h.step_obtain t index
  | find t index => exact ⟨congrArg PoolAnswer.slot (h.contents_find t index), h⟩
  | patch t index => exact ⟨congrArg PoolAnswer.patch (h.patch t index), h⟩
  | clear t =>
    obtain ⟨hfreed, hnext⟩ := h.clear t
    exact ⟨congrArg PoolAnswer.freed hfreed, hnext⟩

end Represents

/-- An operation leaves the bound and counts a refusal exactly if it is a store answered so. -/
theorem PatchMaps.step_counters {n : Nat} (m : PatchMaps n) (op : PoolOperation n) :
    (m.step op).2.bound = m.bound ∧
      (m.step op).2.refused = m.refused + if (m.step op).1 = .stored false then 1 else 0 := by
  cases op with
  | store t index data =>
    cases hentry : (m.maps t)[index]? with
    | some old => simp [step, insert, hentry]
    | none => by_cases hroom : m.total < m.bound <;> simp [step, insert, hentry, hroom]
  | obtain t index =>
    cases hentry : (m.maps t)[index]? with
    | some old => simp [step, hentry]
    | none => by_cases hroom : m.total < m.bound <;> simp [step, insert, hentry, hroom]
  | find t index => simp [step]
  | patch t index => simp [step]
  | clear t => simp [step]

/-- A run leaves the bound and counts a refusal for each store that was answered so. -/
theorem PatchMaps.final_counters {n : Nat} (m : PatchMaps n) (ops : List (PoolOperation n)) :
    (Run.final step m ops).bound = m.bound ∧
      (Run.final step m ops).refused =
        m.refused + (Run.answers step m ops).count (.stored false) := by
  induction ops generalizing m with
  | nil => simp [Run.answers]
  | cons op ops ih =>
    obtain ⟨hbound, hrefused⟩ := m.step_counters op
    obtain ⟨hbounds, hrefusals⟩ := ih (m.step op).2
    refine ⟨hbounds.trans hbound, ?_⟩
    rw [Run.final_cons, hrefusals, hrefused, Run.answers, List.count_cons]
    simp only [beq_iff_eq]
    omega

/-- The maps under a bound never have more entries than it allows. -/
theorem Represents.total_le {n : Nat} {p : PooledTables n} {m : PatchMaps n}
    (h : Represents p m) : m.total ≤ m.bound := by
  obtain ⟨chains, harena⟩ := h.arena
  rw [← h.used_eq, ← h.capacity]
  exact harena.used_le

/-- For any capacity, any number of tables and any operations on them, a pool answers as finite
maps do whose entries together are bounded by the capacity and the limit of sixteen-bit links. Its
patches are the entries, and its counters count the entries and the stores that were refused. -/
theorem tables_are_bounded_maps (n capacity : Nat) (ops : List (PoolOperation n)) :
    let p := Run.final PooledTables.step (.start n capacity) ops
    let m := Run.final PatchMaps.step (.start n (min capacity 65535)) ops
    let answers := Run.answers PooledTables.step (.start n capacity) ops
    answers = Run.answers PatchMaps.step (.start n (min capacity 65535)) ops ∧
      (∀ t index, p.pool.patch (p.tables t) index = (m.maps t)[index]?) ∧
      (∀ t, (p.tables t).size = (m.maps t).size) ∧
      p.pool.used = ∑ t, (m.maps t).size ∧ p.pool.used ≤ min capacity 65535 ∧
      p.pool.capacity = min capacity 65535 ∧
      p.pool.droppedWrites = answers.count (.stored false) := by
  intro p m answers
  obtain ⟨hanswers, hfinal⟩ :=
    Run.simulate (fun _ _ op h => Represents.step h op) (Represents.start n capacity) ops
  obtain ⟨hbound, hrefused⟩ := PatchMaps.final_counters (.start n (min capacity 65535)) ops
  have hbound : m.bound = min capacity 65535 := hbound
  refine ⟨hanswers, hfinal.patch, hfinal.size, hfinal.used_eq, ?_, hfinal.capacity.trans hbound, ?_⟩
  · have hused : p.pool.used = m.total := hfinal.used_eq
    rw [hused, ← hbound]
    exact hfinal.total_le
  · have hdropped : p.pool.droppedWrites = m.refused := hfinal.dropped
    have hstart : (PatchMaps.start n (min capacity 65535)).refused = 0 := rfl
    have hsame : answers =
        Run.answers PatchMaps.step (.start n (min capacity 65535)) ops := hanswers
    rw [hdropped, hsame, hrefused, hstart, Nat.zero_add]

end HardSector
