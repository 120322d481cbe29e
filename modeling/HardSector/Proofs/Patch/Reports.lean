import HardSector.Proofs.Patch.Maps
import Mathlib.Data.List.Induction

/-!
# When exhaustion is reported

A pool remembers that it has told of its exhaustion until a table is cleared. So it tells of it
again only after a clearing, whether or not that has given a slot back, and between two clearings
it tells of it once, however many operations get no slot. What it tells is counted in a word, which
is the number of the reports until there are too many for it.
-/

namespace HardSector

/-- Obtaining a slot marks the pool as exhausted if there is none. The operator is told if the mark
is new, and what is told is counted. -/
theorem PatchPool.obtain_reports (pool : PatchPool) (table : PatchTable) (index : UInt16) :
    let change := pool.obtain table index
    change.pool.exhausted = (change.result.isNone || pool.exhausted) ∧
      change.notices.length = (change.result.isNone && !pool.exhausted).toNat ∧
      change.pool.reports = pool.reports + UInt32.ofNat change.notices.length := by
  unfold obtain
  cases pool.find table index with
  | some slot => simp
  | none =>
    cases pool.free? with
    | some slot => simp [claim]
    | none => cases hmark : pool.exhausted <;> simp [exhaust, hmark]

/-- A dropped store marks the pool as exhausted. The operator is told if the mark is new, and what
is told is counted. -/
theorem PatchPool.store_reports (pool : PatchPool) (table : PatchTable) (index : UInt16)
    (data : Bytes) :
    let change := pool.store table index data
    change.pool.exhausted = (!change.result || pool.exhausted) ∧
      change.notices.length = (!change.result && !pool.exhausted).toNat ∧
      change.pool.reports = pool.reports + UInt32.ofNat change.notices.length := by
  have hobtain := pool.obtain_reports table index
  cases hslot : (pool.obtain table index).result with
  | some slot =>
    rw [store_of_obtain_some data hslot]
    simpa [hslot, fill] using hobtain
  | none =>
    rw [store_of_obtain_none data hslot]
    simpa [hslot] using hobtain

/-- Whether an operation clears a table. -/
def PoolOperation.isClear {n : Nat} : PoolOperation n → Bool
  | .clear _ => true
  | .store .. | .obtain .. | .find .. | .patch .. => false

namespace PooledTables

variable {n : Nat}

/-- Whether an operation needs a slot and gets none. -/
def denies (p : PooledTables n) : PoolOperation n → Bool
  | .store t index data => !(p.pool.store (p.tables t) index data).result
  | .obtain t index => (p.pool.obtain (p.tables t) index).result.isNone
  | .find .. | .patch .. | .clear _ => false

/-- What an operation tells the operator. -/
def notices (p : PooledTables n) : PoolOperation n → List Notice
  | .store t index data => (p.pool.store (p.tables t) index data).notices
  | .obtain t index => (p.pool.obtain (p.tables t) index).notices
  | .clear t => (p.pool.clear (p.tables t)).notices
  | .find .. | .patch .. => []

/-- What some operations tell the operator, one after another. -/
def told : PooledTables n → List (PoolOperation n) → List Notice
  | _, [] => []
  | p, op :: ops => p.notices op ++ told (p.step op).2 ops

/-- One of some operations got no slot, and no table was cleared after it. -/
def DeniedSinceClear (p : PooledTables n) (ops : List (PoolOperation n)) : Prop :=
  ∃ earlier op later, ops = earlier ++ op :: later ∧
    (Run.final step p earlier).denies op = true ∧ ∀ op' ∈ later, op'.isClear = false

/-- The mark of exhaustion is set by an operation that gets no slot and lifted by a clearing. The
operator is told each time it is set anew, and what is told is counted. -/
theorem step_reports {p : PooledTables n} (h : ∃ chains, Arena p.pool p.tables chains)
    (op : PoolOperation n) :
    (p.step op).2.pool.exhausted = (p.denies op || (p.pool.exhausted && !op.isClear)) ∧
      (p.notices op).length = (p.denies op && !p.pool.exhausted).toNat ∧
      (p.step op).2.pool.reports = p.pool.reports + UInt32.ofNat (p.notices op).length := by
  obtain ⟨chains, harena⟩ := h
  cases op with
  | store t index data =>
    simpa [step, update, notices, denies, PoolOperation.isClear] using
      p.pool.store_reports (p.tables t) index data
  | obtain t index =>
    simpa [step, update, notices, denies, PoolOperation.isClear] using
      p.pool.obtain_reports (p.tables t) index
  | find t index => simp [step, notices, denies, PoolOperation.isClear]
  | patch t index => simp [step, notices, denies, PoolOperation.isClear]
  | clear t =>
    obtain ⟨_, _, _, _, hcount⟩ := PatchPool.giveAll_fields p.pool (Arena.slotsOf chains t)
    simp [step, update, notices, denies, PoolOperation.isClear, harena.clear_eq t, hcount]

/-- Operations keep an arena. -/
theorem arena_final (capacity : Nat) (ops : List (PoolOperation n)) :
    ∃ chains, Arena (Run.final step (start n capacity) ops).pool
      (Run.final step (start n capacity) ops).tables chains :=
  (Run.simulate (fun _ _ op h => Represents.step h op)
    (Represents.start n capacity) ops).2.arena

/-- A denial that no clearing has followed goes on since the denied operation. -/
theorem deniedSinceClear_iff_since (p : PooledTables n) (ops : List (PoolOperation n)) :
    p.DeniedSinceClear ops ↔
      Run.Since (fun earlier op => (Run.final step p earlier).denies op = true)
        (fun op => op.isClear = true) ops := by
  unfold DeniedSinceClear Run.Since
  simp only [Bool.not_eq_true]

/-- The last of some operations got no slot, or an earlier one got none and the last clears no
table. -/
theorem deniedSinceClear_snoc (p : PooledTables n) (ops : List (PoolOperation n))
    (last : PoolOperation n) :
    p.DeniedSinceClear (ops ++ [last]) ↔ (Run.final step p ops).denies last = true ∨
      p.DeniedSinceClear ops ∧ last.isClear = false := by
  rw [deniedSinceClear_iff_since, deniedSinceClear_iff_since, Run.since_snoc, Bool.not_eq_true]

/-- A pool is marked as exhausted exactly if an operation got no slot since a table was last
cleared. -/
theorem exhausted_iff_deniedSinceClear (capacity : Nat) (ops : List (PoolOperation n)) :
    (Run.final step (start n capacity) ops).pool.exhausted = true ↔
      (start n capacity).DeniedSinceClear ops := by
  induction ops using List.reverseRecOn with
  | nil =>
    constructor
    · intro hmark
      cases hmark
    · rintro ⟨earlier, op, later, hops, _⟩
      simp at hops
  | append_singleton ops last ih =>
    have hstep := (step_reports (arena_final capacity ops) last).1
    rw [deniedSinceClear_snoc, Run.final_append, Run.final_cons, Run.final_nil, hstep, ← ih]
    simp

/-- The last of some operations tells the operator its notices after those of the others. -/
theorem told_snoc (p : PooledTables n) (ops : List (PoolOperation n)) (last : PoolOperation n) :
    p.told (ops ++ [last]) = p.told ops ++ (Run.final step p ops).notices last := by
  induction ops generalizing p with
  | nil => simp [told]
  | cons op ops ih => rw [List.cons_append, told, told, ih, Run.final_cons, List.append_assoc]

/-- The word of a pool counts what the operator was told. -/
theorem reports_final (capacity : Nat) (ops : List (PoolOperation n)) :
    (Run.final step (start n capacity) ops).pool.reports =
      UInt32.ofNat ((start n capacity).told ops).length := by
  induction ops using List.reverseRecOn with
  | nil => rfl
  | append_singleton ops last ih =>
    have hstep := (step_reports (arena_final capacity ops) last).2.2
    rw [Run.final_append, Run.final_cons, Run.final_nil, hstep, ih, told_snoc, List.length_append,
      UInt32.ofNat_add]

/-- The count of reports is the number of reports, as long as a word can hold it. -/
theorem exhaustionReports_final (capacity : Nat) (ops : List (PoolOperation n)) :
    (Run.final step (start n capacity) ops).pool.exhaustionReports =
      ((start n capacity).told ops).length % UInt32.size := by
  rw [PatchPool.exhaustionReports, reports_final, UInt32.toNat_ofNat']

/-- While no table is cleared, the mark of exhaustion stays once it is set, and the operator is told
once when it is set. -/
theorem final_reports (capacity : Nat) (past : List (PoolOperation n))
    {later : List (PoolOperation n)} (hkept : ∀ op ∈ later, op.isClear = false) :
    let before := (Run.final step (start n capacity) past).pool
    let after := (Run.final step (start n capacity) (past ++ later)).pool
    (before.exhausted = true → after.exhausted = true) ∧
      ((start n capacity).told (past ++ later)).length =
        ((start n capacity).told past).length + (!before.exhausted && after.exhausted).toNat := by
  induction later using List.reverseRecOn with
  | nil => simp
  | append_singleton later last ih =>
    obtain ⟨hmarked, htold⟩ := ih fun op hop => hkept op (List.mem_append_left _ hop)
    obtain ⟨hmark, hnotices, _⟩ := step_reports (arena_final capacity (past ++ later)) last
    have hlast : last.isClear = false := hkept last (by simp)
    dsimp only
    rw [← List.append_assoc, Run.final_append _ _ _ [last], Run.final_cons, Run.final_nil,
      told_snoc, List.length_append, htold, hnotices, hmark, hlast, Nat.add_assoc]
    -- The two earlier marks decide it, with whether the last operation gets a slot.
    revert hmarked
    cases (Run.final step (start n capacity) past).pool.exhausted <;>
      cases (Run.final step (start n capacity) (past ++ later)).pool.exhausted <;>
      cases (Run.final step (start n capacity) (past ++ later)).denies last <;> simp

/-- The count of reports changes with an operation that gets no slot in a pool not marked as
exhausted. -/
theorem exhaustionReports_ne_iff (capacity : Nat) (ops : List (PoolOperation n))
    (op : PoolOperation n) :
    let before := Run.final step (start n capacity) ops
    (Run.final step (start n capacity) (ops ++ [op])).pool.exhaustionReports ≠
        before.pool.exhaustionReports ↔
      before.denies op = true ∧ before.pool.exhausted = false := by
  intro before
  have hnotices : (before.notices op).length = _ :=
    (step_reports (arena_final capacity ops) op).2.1
  -- A report always changes the word, also when it wraps around.
  have hnext : ∀ count : Nat, (count + 1) % UInt32.size ≠ count % UInt32.size := by
    intro count
    have hsize : UInt32.size = 4294967296 := rfl
    rw [hsize]
    omega
  rw [exhaustionReports_final, exhaustionReports_final, told_snoc, List.length_append, hnotices]
  cases before.denies op <;> cases before.pool.exhausted <;> simp [hnext]

/-- Between two reports of exhaustion a table is cleared, whether or not it has patches. Over
operations that clear none, the operator is told once if the pool is denied a slot among them and
was not before since the last clearing, and not told otherwise. The count of reports rises by one
when the operator is told, unless a word cannot hold the number of all reports. -/
theorem exhaustion_reported_once_between_clears (n capacity : Nat)
    (past later : List (PoolOperation n)) :
    let reports := fun ops => (Run.final step (start n capacity) ops).pool.exhaustionReports
    let told := fun ops => ((start n capacity).told ops).length
    let denied := (start n capacity).DeniedSinceClear
    (∀ op op', reports (past ++ [op]) ≠ reports past →
        reports (past ++ [op] ++ later ++ [op']) ≠ reports (past ++ [op] ++ later) →
        ∃ t, .clear t ∈ later) ∧
      ((∀ op ∈ later, op.isClear = false) →
        (¬denied past ∧ denied (past ++ later) →
          told (past ++ later) = told past + 1 ∧
            (told (past ++ later) < UInt32.size → reports (past ++ later) = reports past + 1)) ∧
        (denied past ∨ ¬denied (past ++ later) →
          told (past ++ later) = told past ∧ reports (past ++ later) = reports past)) := by
  intro reports told denied
  have hreports : ∀ ops, reports ops = told ops % UInt32.size := exhaustionReports_final capacity
  refine ⟨fun op op' hfirst hsecond => ?_, fun hkept => ?_⟩
  · by_contra hnone
    have hkept : ∀ op ∈ later, op.isClear = false := by
      intro op hop
      cases op with
      | clear t => exact absurd ⟨t, hop⟩ hnone
      | _ => rfl
    -- The first report sets the mark, and nothing lifts it before the second.
    have hset : (Run.final step (start n capacity) (past ++ [op])).pool.exhausted = true := by
      obtain ⟨hdenies, _⟩ := (exhaustionReports_ne_iff capacity past op).mp hfirst
      rw [exhausted_iff_deniedSinceClear, deniedSinceClear_snoc]
      exact Or.inl hdenies
    have hstill := (final_reports capacity (past ++ [op]) hkept).1 hset
    have hunset := ((exhaustionReports_ne_iff capacity (past ++ [op] ++ later) op').mp hsecond).2
    rw [hstill] at hunset
    cases hunset
  · have htold : told (past ++ later) = told past + _ := (final_reports capacity past hkept).2
    simp only [denied, ← exhausted_iff_deniedSinceClear, Bool.not_eq_true]
    constructor
    · rintro ⟨hbefore, hafter⟩
      have honce : told (past ++ later) = told past + 1 := by
        rw [htold, hbefore, hafter]
        rfl
      refine ⟨honce, fun hfits => ?_⟩
      have hpast : told past < UInt32.size := by omega
      rw [hreports, hreports, Nat.mod_eq_of_lt hfits, Nat.mod_eq_of_lt hpast, honce]
    · intro hmark
      have hnever : told (past ++ later) = told past := by
        rw [htold]
        rcases hmark with hbefore | hafter
        · rw [hbefore]
          rfl
        · rw [hafter, Bool.and_false]
          rfl
      exact ⟨hnever, by rw [hreports, hreports, hnever]⟩

/-- One report is counted for two dropped stores and a slot that is not found. -/
theorem exhaustion_reported_once_for_three_denials :
    let past : List (PoolOperation 2) := [.store 0 0 #[1]]
    let later : List (PoolOperation 2) := [.store 1 0 #[2], .store 1 5 #[3], .obtain 0 7]
    let reports := fun ops => (Run.final step (start 2 1) ops).pool.exhaustionReports
    let told := fun ops => ((start 2 1).told ops).length
    (∀ op ∈ later, op.isClear = false) ∧ told (past ++ later) < UInt32.size ∧
      told past = 0 ∧ told (past ++ later) = 1 ∧ reports past = 0 ∧ reports (past ++ later) = 1 := by
  intro past later reports told
  have hkept : ∀ op ∈ later, op.isClear = false := by decide
  have hbefore : ¬(start 2 1).DeniedSinceClear past := by
    rw [← exhausted_iff_deniedSinceClear]
    decide +kernel
  have hafter : (start 2 1).DeniedSinceClear (past ++ later) := by
    rw [← exhausted_iff_deniedSinceClear]
    decide +kernel
  have hfits : told (past ++ later) < UInt32.size := by decide +kernel
  have htold : told past = 0 := by decide +kernel
  have hnone : reports past = 0 := by decide +kernel
  have honce := ((exhaustion_reported_once_between_clears 2 1 past later).2 hkept).1
  obtain ⟨hrise, hcount⟩ := honce ⟨hbefore, hafter⟩
  have hcount : reports (past ++ later) = reports past + 1 := hcount hfits
  refine ⟨hkept, hfits, htold, ?_, hnone, ?_⟩
  · exact hrise.trans (congrArg (· + 1) htold)
  · rw [hcount, hnone]

/-- A full pool is reported a second time once a table without patches is cleared. -/
theorem exhaustion_reported_again_in_full_pool :
    let ops : List (PoolOperation 2) :=
      [.store 0 0 #[1], .store 1 0 #[2], .clear 1, .store 1 0 #[2]]
    let reports := fun ops => (Run.final step (start 2 1) ops).pool.exhaustionReports
    Run.answers step (start 2 1) ops =
        [.stored true, .stored false, .freed 0, .stored false] ∧
      reports (ops.take 1) = 0 ∧ reports (ops.take 2) = 1 ∧ reports (ops.take 3) = 1 ∧
      reports ops = 2 := by
  decide +kernel

end PooledTables

end HardSector
