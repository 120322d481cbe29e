import HardSector.Bytes
import HardSector.Geometry
import HardSector.Notice

/-!
# Patch pools

Sectors written over a read-only image are kept as patches. A pool is a fixed number of slots that
the media of one controller share. The patches of one medium are found through a table of buckets:
each bucket holds the number of the first slot of a chain, and each slot the number of the next. A
full pool drops writes instead of failing, and says so once until slots are given back.
-/

namespace HardSector

/-- The number of buckets of a patch table. -/
abbrev bucketCount : Nat := 64

/-- A place for one patch. It is free while it belongs to no sector. -/
structure PatchSlot where
  index : Option UInt16 := none
  data : Vector UInt8 sectorSize := Vector.replicate sectorSize 0
  next : Option UInt16 := none
deriving DecidableEq, Repr

/-- The patches of one medium: the first slot of each bucket's chain, and how many patches there
are. -/
structure PatchTable where
  heads : Vector (Option UInt16) bucketCount
  size : Nat
deriving DecidableEq, Repr

/-- The slots that the media of a controller share, and what became of them. The search for a free
slot starts at `cursor`, and `reports` is how often the operator was told that none is left. -/
structure PatchPool where
  slots : Array PatchSlot
  cursor : Nat := 0
  used : Nat := 0
  exhausted : Bool := false
  droppedWrites : Nat := 0
  reports : UInt32 := 0
deriving DecidableEq, Repr

namespace PatchTable

/-- A table without patches. -/
def empty : PatchTable := ⟨Vector.replicate bucketCount none, 0⟩

/-- Whether a table has no patches. -/
def isEmpty (table : PatchTable) : Bool := table.size == 0

/-- The bucket of a sector. -/
def bucket (index : UInt16) : Fin bucketCount :=
  ⟨index.toNat % bucketCount, Nat.mod_lt _ (by decide)⟩

/-- The first slot of a sector's bucket. -/
def head (table : PatchTable) (index : UInt16) : Option UInt16 := table.heads[bucket index]

/-- Let the chain of a sector's bucket begin with a new slot. -/
def push (table : PatchTable) (index link : UInt16) : PatchTable :=
  ⟨table.heads.set (bucket index) (some link), table.size + 1⟩

end PatchTable

namespace PatchPool

/-- The capacity of a pool unless another is asked for. -/
def defaultCapacity : Nat := 256

/-- Slots are linked by sixteen-bit numbers, which limits their number. -/
def capacityLimit : Nat := 65535

/-- A pool of free slots; more than the limit are not made. -/
def ofCapacity (capacity : Nat) : PatchPool :=
  { slots := Array.replicate (min capacity capacityLimit) {} }

/-- What making a pool of some capacity tells the operator. -/
def capacityNotices (capacity : Nat) : List Notice :=
  if capacityLimit < capacity then [.poolLimited capacity capacityLimit] else []

/-- The number of slots. -/
def capacity (pool : PatchPool) : Nat := pool.slots.size

/-- How often exhaustion was reported, as far as the word that counts it can hold that. -/
def exhaustionReports (pool : PatchPool) : Nat := pool.reports.toNat

/-- The slot of a sector's patch, searched along a chain of at most `fuel` slots. -/
def findFrom (pool : PatchPool) (index : UInt16) : Nat → Option UInt16 → Option Nat
  | 0, _ => none
  | _ + 1, none => none
  | fuel + 1, some link =>
    match pool.slots[link.toNat]? with
    | none => none
    | some slot =>
      if slot.index = some index then some link.toNat else pool.findFrom index fuel slot.next

/-- The slot of a sector's patch in a table. A chain visits no slot twice, so the capacity bounds
its length. -/
def find (pool : PatchPool) (table : PatchTable) (index : UInt16) : Option Nat :=
  pool.findFrom index pool.capacity (table.head index)

/-- The patch of a sector, if the sector has been written. -/
def patch (pool : PatchPool) (table : PatchTable) (index : UInt16) :
    Option (Vector UInt8 sectorSize) :=
  match pool.find table index with
  | none => none
  | some slot => (pool.slots[slot]?).map PatchSlot.data

/-- Whether a slot is free. -/
def isFree (pool : PatchPool) (slot : Nat) : Bool :=
  match pool.slots[slot]? with
  | none => false
  | some s => s.index.isNone

/-- The first free slot among the next `count` from a slot on, going round at the end. -/
def freeFrom (pool : PatchPool) : Nat → Nat → Option Nat
  | 0, _ => none
  | count + 1, slot =>
    if pool.isFree slot then some slot else pool.freeFrom count ((slot + 1) % pool.capacity)

/-- The first free slot from the cursor on. -/
def free? (pool : PatchPool) : Option Nat :=
  pool.freeFrom pool.capacity (pool.cursor % pool.capacity)

/-- Give a free slot to a sector: it holds zeros and comes before the chain that starts at `next`,
and the search for the next free slot starts behind it. -/
def claim (pool : PatchPool) (slot : Nat) (index : UInt16) (next : Option UInt16) : PatchPool :=
  let cursor := (slot + 1) % pool.capacity
  { pool with
    slots := pool.slots.setIfInBounds slot { index := some index, next := next }
    cursor := cursor
    used := pool.used + 1 }

/-- Note that no slot was free; the operator is told on the first such occasion. -/
def exhaust (pool : PatchPool) : PatchPool × List Notice :=
  if pool.exhausted then (pool, [])
  else
    ({ pool with exhausted := true, reports := pool.reports + 1 },
      [.poolExhausted pool.used pool.capacity])

/-- What an operation on a table leaves behind, besides its result. -/
structure Change (α : Type) where
  result : α
  pool : PatchPool
  table : PatchTable
  notices : List Notice := []

/-- The slot of a sector's patch. A sector without one gets a patch of zeros, unless no slot is
free. -/
def obtain (pool : PatchPool) (table : PatchTable) (index : UInt16) : Change (Option Nat) :=
  match pool.find table index with
  | some slot => ⟨some slot, pool, table, []⟩
  | none =>
    match pool.free? with
    | some slot =>
      ⟨some slot, pool.claim slot index (table.head index),
        table.push index (UInt16.ofNat slot), []⟩
    | none =>
      let (pool, notices) := pool.exhaust
      ⟨none, pool, table, notices⟩

/-- `old` with its first bytes replaced by those of `data`; bytes past a sector are ignored. -/
def overwrite (old : Vector UInt8 sectorSize) (data : Bytes) : Vector UInt8 sectorSize :=
  Vector.ofFn fun i => data.getD i old[i]

/-- Write bytes over the patch in a slot. -/
def fill (pool : PatchPool) (slot : Nat) (data : Bytes) : PatchPool :=
  { pool with
    slots := pool.slots.modify slot fun s => { s with data := overwrite s.data data } }

/-- Keep the contents of a sector. The write is dropped, and the result false, if the sector has no
patch and no slot is free. -/
def store (pool : PatchPool) (table : PatchTable) (index : UInt16) (data : Bytes) : Change Bool :=
  match pool.obtain table index with
  | ⟨some slot, pool, table, notices⟩ => ⟨true, pool.fill slot data, table, notices⟩
  | ⟨none, pool, table, notices⟩ =>
    ⟨false, { pool with droppedWrites := pool.droppedWrites + 1 }, table, notices⟩

/-- Take a slot from its sector. -/
def give (pool : PatchPool) (slot : Nat) : PatchPool :=
  { pool with
    slots := pool.slots.modify slot fun s => { s with index := none, next := none }
    used := pool.used - 1 }

/-- Free the slots of a chain of at most `fuel` slots, and count them on top of `freed`. -/
def freeChain : Nat → Option UInt16 → PatchPool → Nat → Nat × PatchPool
  | 0, _, pool, freed => (freed, pool)
  | _ + 1, none, pool, freed => (freed, pool)
  | fuel + 1, some link, pool, freed =>
    match pool.slots[link.toNat]? with
    | none => (freed, pool)
    | some slot => freeChain fuel slot.next (pool.give link.toNat) (freed + 1)

/-- Free the slots of several chains. -/
def freeChains : List (Option UInt16) → PatchPool → Nat → Nat × PatchPool
  | [], pool, freed => (freed, pool)
  | head :: heads, pool, freed =>
    let (freed, pool) := freeChain pool.capacity head pool freed
    freeChains heads pool freed

/-- Give back all patches of a table and count them. The pool may have room again, so the next
exhaustion is told anew. -/
def clear (pool : PatchPool) (table : PatchTable) : Change Nat :=
  let (freed, pool) := freeChains table.heads.toList pool 0
  ⟨freed, { pool with exhausted := false }, .empty, []⟩

@[simp] theorem capacity_ofCapacity (capacity : Nat) :
    (ofCapacity capacity).capacity = min capacity capacityLimit := by
  simp [ofCapacity, PatchPool.capacity]

@[simp] theorem capacity_claim (pool : PatchPool) (slot : Nat) (index : UInt16)
    (next : Option UInt16) : (pool.claim slot index next).capacity = pool.capacity := by
  simp [claim, capacity]

@[simp] theorem capacity_fill (pool : PatchPool) (slot : Nat) (data : Bytes) :
    (pool.fill slot data).capacity = pool.capacity := by
  simp [fill, capacity]

@[simp] theorem capacity_give (pool : PatchPool) (slot : Nat) :
    (pool.give slot).capacity = pool.capacity := by
  simp [give, capacity]

@[simp] theorem capacity_exhaust (pool : PatchPool) : pool.exhaust.1.capacity = pool.capacity := by
  unfold exhaust
  split <;> rfl

/-- No operation on a table changes the number of slots. -/
@[simp] theorem capacity_obtain (pool : PatchPool) (table : PatchTable) (index : UInt16) :
    (pool.obtain table index).pool.capacity = pool.capacity := by
  unfold obtain
  split
  · rfl
  · split
    · simp
    · simp

/-- A table that was cleared has no patches. -/
@[simp] theorem table_clear (pool : PatchPool) (table : PatchTable) :
    (pool.clear table).table = .empty := rfl

end PatchPool

end HardSector
