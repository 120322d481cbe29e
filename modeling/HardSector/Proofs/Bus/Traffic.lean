import HardSector.Proofs.Bus.Removal

/-!
# Counting accesses

The bus counts the accesses at an address from the first one on, whoever answers them. What
it reports after a run can be read off the accesses of the run and their answers, and
devices that come and go change nothing of it.
-/

namespace HardSector

namespace BusOperation

variable {M R : Type}

/-- An operation reads at an address. -/
def readsAt (address : UInt16) : BusOperation M R → Bool
  | .read readAt => readAt == address
  | _ => false

/-- An operation writes at an address. -/
def writesAt (address : UInt16) : BusOperation M R → Bool
  | .write writtenAt _ => writtenAt == address
  | _ => false

/-- An operation reads or writes at an address. -/
def accesses (address : UInt16) (op : BusOperation M R) : Bool :=
  op.readsAt address || op.writesAt address

/-- The byte that an operation writes at an address. -/
def byteWritten? (address : UInt16) : BusOperation M R → Option UInt8
  | .write writtenAt byte => if writtenAt = address then some byte else none
  | _ => none

/-- The byte that is answered to an operation that reads at an address. -/
def byteRead? (address : UInt16) : BusOperation M R × BusAnswer M R → Option UInt8
  | (.read readAt, .byte value) => if readAt = address then some value else none
  | _ => none

/-- What does not access an address reads and writes no byte there. -/
theorem bytes_of_not_accesses {address : UInt16} {op : BusOperation M R}
    (hop : op.accesses address = false) (answer : BusAnswer M R) :
    op.readsAt address = false ∧ op.writesAt address = false ∧
      byteRead? address (op, answer) = none ∧ op.byteWritten? address = none := by
  obtain ⟨hreads, hwrites⟩ := Bool.or_eq_false_iff.mp hop
  refine ⟨hreads, hwrites, ?_, ?_⟩
  · cases op with
    | read readAt =>
      have hne : readAt ≠ address := by simpa [readsAt] using hreads
      cases answer <;> simp [byteRead?, hne]
    | _ => rfl
  · cases op with
    | write writtenAt byte =>
      have hne : writtenAt ≠ address := by simpa [writesAt] using hwrites
      simp [byteWritten?, hne]
    | _ => rfl

end BusOperation

/-- An access was not possible. -/
def BusAnswer.isFault {M R : Type} : BusAnswer M R → Bool
  | .fault _ => true
  | _ => false

namespace Bus

variable {M R W : Type}

/-- The traffic at an address agrees with the accesses of a log. -/
structure Tallies (log : List (BusOperation M R × BusAnswer M R)) (address : UInt16)
    (traffic : Option Traffic) : Prop where
  seen : traffic.isSome ↔ ∃ entry ∈ log, entry.1.accesses address
  reads : traffic.elim 0 Traffic.reads = log.countP (·.1.readsAt address)
  writes : traffic.elim 0 Traffic.writes = log.countP (·.1.writesAt address)
  lastRead : traffic.elim 0 Traffic.lastRead =
    (log.filterMap (BusOperation.byteRead? address)).getLast?.getD 0
  lastWrite : traffic.elim 0 Traffic.lastWrite =
    (log.filterMap (·.1.byteWritten? address)).getLast?.getD 0

namespace Tallies

variable {log : List (BusOperation M R × BusAnswer M R)} {address : UInt16}
  {traffic : Option Traffic}

/-- Nothing passed before the first operation. -/
theorem nil : Tallies ([] : List (BusOperation M R × BusAnswer M R)) address none := by
  constructor <;> simp

/-- A byte that is read is counted. -/
theorem read (ht : Tallies log address traffic) (answered : Bool) (byte : UInt8) :
    Tallies (log ++ [(.read address, .byte byte)]) address
      (some (.afterRead traffic answered byte)) := by
  obtain ⟨_, hreads, hwrites, _, hlastWrite⟩ := ht
  constructor
  · simp [BusOperation.accesses, BusOperation.readsAt]
  · rw [List.countP_append, ← hreads]
    cases traffic <;> simp [Traffic.afterRead, BusOperation.readsAt]
  · rw [List.countP_append, ← hwrites]
    cases traffic <;> simp [Traffic.afterRead, BusOperation.writesAt]
  · simp [Traffic.afterRead, BusOperation.byteRead?]
  · rw [List.filterMap_append, List.filterMap_cons_none rfl, List.filterMap_nil, List.append_nil,
      ← hlastWrite]
    cases traffic <;> rfl

/-- A byte that is written is counted. -/
theorem write (ht : Tallies log address traffic) (answered : Bool) (byte : UInt8)
    (answer : BusAnswer M R) :
    Tallies (log ++ [(.write address byte, answer)]) address
      (some (.afterWrite traffic answered byte)) := by
  obtain ⟨_, hreads, hwrites, hlastRead, _⟩ := ht
  constructor
  · simp [BusOperation.accesses, BusOperation.writesAt]
  · rw [List.countP_append, ← hreads]
    cases traffic <;> simp [Traffic.afterWrite, BusOperation.readsAt]
  · rw [List.countP_append, ← hwrites]
    cases traffic <;> simp [Traffic.afterWrite, BusOperation.writesAt]
  · rw [List.filterMap_append, List.filterMap_cons_none (by cases answer <;> rfl),
      List.filterMap_nil, List.append_nil, ← hlastRead]
    cases traffic <;> rfl
  · simp [Traffic.afterWrite, BusOperation.byteWritten?]

/-- What happens elsewhere is not counted. -/
theorem elsewhere (ht : Tallies log address traffic) {op : BusOperation M R}
    (hop : op.accesses address = false) (answer : BusAnswer M R) :
    Tallies (log ++ [(op, answer)]) address traffic := by
  obtain ⟨hseen, hreads, hwrites, hlastRead, hlastWrite⟩ := ht
  obtain ⟨hnoRead, hnoWrite, hnoneRead, hnoneWritten⟩ :=
    BusOperation.bytes_of_not_accesses hop answer
  constructor
  · simp [hseen, hop]
  · simp [hreads, hnoRead]
  · simp [hwrites, hnoWrite]
  · simp [hlastRead, hnoneRead]
  · simp [hlastWrite, hnoneWritten]

end Tallies

variable [Medium M R W]

/-! ## Runs without faults -/

/-- No access of a run faults. -/
def Faultless (host : W) (ops : List (BusOperation M R)) : Prop :=
  ∀ answer ∈ Run.answers perform (empty host) ops, answer.isFault = false

/-- A run does not fault if it did not before its last operation and that one does not. -/
theorem faultless_snoc {host : W} {ops : List (BusOperation M R)} {op : BusOperation M R} :
    Faultless host (ops ++ [op]) ↔ Faultless host ops ∧
      (perform (after (empty host) ops) op).1.isFault = false := by
  unfold Faultless
  rw [Run.answers_append, List.forall_mem_append]
  simp [Run.answers]

/-- What is no access passes no traffic. -/
theorem traffic_of_not_access (h : Hosted (Bus M R) W) {op : BusOperation M R}
    (hop : ¬op.IsAccess) : (perform h op).2.device.traffic = h.device.traffic := by
  cases op with
  | installController controller =>
    change (installController h controller).device.traffic = _
    unfold installController
    exact traffic_closeController _
  | installSwitches switches => rfl
  | removeController => rfl
  | operate op =>
    change (operate h op).2.device.traffic = _
    unfold operate
    split <;> rfl
  | read address => exact absurd trivial hop
  | write address byte => exact absurd trivial hop

/-- A read that gives a byte changes the traffic where it reads. -/
theorem getElem?_traffic_read {h : Hosted (Bus M R) W} {readAt : UInt16} {byte : UInt8}
    (hread : (read h readAt).1 = .ok byte) (address : UInt16) :
    (read h readAt).2.device.traffic[address]? =
      if readAt = address
      then some (.afterRead h.device.traffic[readAt]? (h.device.live readAt) byte)
      else h.device.traffic[address]? := by
  rw [traffic_read, hread]
  simp only [Std.TreeMap.getElem?_insert, Std.compare_eq_iff_eq]

/-- A write that does not fault changes the traffic where it writes. -/
theorem getElem?_traffic_write {h : Hosted (Bus M R) W} {writtenAt : UInt16} {byte : UInt8}
    (hwrite : (write h writtenAt byte).1 = .ok ()) (address : UInt16) :
    (write h writtenAt byte).2.device.traffic[address]? =
      if writtenAt = address
      then some (.afterWrite h.device.traffic[writtenAt]? (h.device.live writtenAt) byte)
      else h.device.traffic[address]? := by
  rw [traffic_write, hwrite]
  simp only [Std.TreeMap.getElem?_insert, Std.compare_eq_iff_eq]

/-- What an operation that does not fault does to the traffic at an address: a read or a write there
is counted, and nothing else changes it. -/
theorem traffic_perform (h : Hosted (Bus M R) W) (op : BusOperation M R) (address : UInt16)
    (hfaultless : (perform h op).1.isFault = false) :
    let before := h.device.traffic[address]?
    let traffic := (perform h op).2.device.traffic[address]?
    (∃ byte, op = .read address ∧ (perform h op).1 = .byte byte ∧
      traffic = some (.afterRead before (h.device.live address) byte)) ∨
    (∃ byte, op = .write address byte ∧
      traffic = some (.afterWrite before (h.device.live address) byte)) ∨
    (op.accesses address = false ∧ traffic = before) := by
  intro before traffic
  cases op with
  | read readAt =>
    have hanswer : (perform h (.read readAt)).1 = .ofRead (read h readAt).1 := rfl
    cases hread : (read h readAt).1 with
    | error cause =>
      rw [hanswer, hread] at hfaultless
      cases hfaultless
    | ok byte =>
      rw [hread] at hanswer
      have htraffic : traffic = _ := getElem?_traffic_read hread address
      by_cases hsame : readAt = address
      · subst hsame
        rw [if_pos rfl] at htraffic
        exact Or.inl ⟨byte, rfl, hanswer, htraffic⟩
      · rw [if_neg hsame] at htraffic
        exact Or.inr (Or.inr ⟨by simp [BusOperation.accesses, BusOperation.readsAt,
          BusOperation.writesAt, hsame], htraffic⟩)
  | write writtenAt byte =>
    have hanswer : (perform h (.write writtenAt byte)).1 =
        .ofWrite (write h writtenAt byte).1 := rfl
    cases hwrite : (write h writtenAt byte).1 with
    | error cause =>
      rw [hanswer, hwrite] at hfaultless
      cases hfaultless
    | ok _ =>
      have htraffic : traffic = _ := getElem?_traffic_write hwrite address
      by_cases hsame : writtenAt = address
      · subst hsame
        rw [if_pos rfl] at htraffic
        exact Or.inr (Or.inl ⟨byte, rfl, htraffic⟩)
      · rw [if_neg hsame] at htraffic
        exact Or.inr (Or.inr ⟨by simp [BusOperation.accesses, BusOperation.readsAt,
          BusOperation.writesAt, hsame], htraffic⟩)
  | _ =>
    refine Or.inr (Or.inr ⟨rfl, ?_⟩)
    exact congrArg (fun traffic : AddressMap Traffic => traffic[address]?)
      (traffic_of_not_access h nofun)

/-- After a run that does not fault, the traffic at an address agrees with the accesses there. -/
theorem tallies_after {host : W} {ops : List (BusOperation M R)} (hfaultless : Faultless host ops)
    (address : UInt16) :
    Tallies (Run.log perform (empty host) ops) address
      (after (empty host) ops).device.traffic[address]? := by
  induction ops using List.reverseRecOn with
  | nil =>
    have hnone : (empty host : Hosted (Bus M R) W).device.traffic[address]? = none := by
      simp [empty]
    rw [after, Run.final_nil, hnone]
    exact Tallies.nil
  | append_singleton ops op ih =>
    obtain ⟨hbefore, hlast⟩ := faultless_snoc.mp hfaultless
    have hfinal : after (empty host) (ops ++ [op]) = (perform (after (empty host) ops) op).2 :=
      Run.final_append ..
    rw [hfinal, Run.log_snoc]
    rcases traffic_perform (after (empty host) ops) op address hlast with
      ⟨byte, rfl, hanswer, htraffic⟩ | ⟨byte, rfl, htraffic⟩ | ⟨helsewhere, htraffic⟩
    · rw [htraffic, hanswer]
      exact (ih hbefore).read _ byte
    · rw [htraffic]
      exact (ih hbefore).write _ byte _
    · rw [htraffic]
      exact (ih hbefore).elsewhere helsewhere _

/-- After a run that does not fault, there is traffic at the addresses that were accessed. -/
theorem accessed_iff {host : W} {ops : List (BusOperation M R)} (hfaultless : Faultless host ops)
    (address : UInt16) :
    (after (empty host) ops).device.traffic[address]?.isSome ↔
      ∃ op ∈ ops, op.accesses address := by
  have hops : (Run.log perform (empty host) ops).map Prod.fst = ops := Run.map_fst_log ..
  rw [(tallies_after hfaultless address).seen]
  constructor
  · rintro ⟨entry, hentry, haccess⟩
    refine ⟨entry.1, ?_, haccess⟩
    rw [← hops]
    exact List.mem_map_of_mem hentry
  · rintro ⟨op, hop, haccess⟩
    rw [← hops] at hop
    obtain ⟨entry, hentry, rfl⟩ := List.mem_map.mp hop
    exact ⟨entry, hentry, haccess⟩

/-! ## Reports -/

/-- A report has the traffic at an address, and a description if the first access there was
answered. -/
theorem mem_report_iff {bus : Bus M R} {address : UInt16} {description : String}
    {traffic : Traffic} :
    (address, description, traffic) ∈ bus.report ↔
      bus.traffic[address]? = some traffic ∧
        description =
          (if traffic.answered then bus.description? address else none).getD unmapped := by
  unfold report
  simp only [List.mem_map, Prod.exists, Prod.mk.injEq, Std.TreeMap.mem_toList_iff_getElem?_eq_some]
  constructor
  · rintro ⟨address', traffic', hmem, rfl, rfl, rfl⟩
    exact ⟨hmem, rfl⟩
  · rintro ⟨hmem, rfl⟩
    exact ⟨address, traffic, hmem, rfl, rfl, rfl⟩

/-- A report is on the addresses that have seen traffic. -/
theorem addresses_report (bus : Bus M R) : bus.report.map Prod.fst = bus.traffic.keys := by
  unfold report
  rw [List.map_map, ← Std.TreeMap.map_fst_toList_eq_keys]
  rfl

/-- A report has the traffic that was counted. -/
theorem counts_report (bus : Bus M R) :
    (bus.report.map fun entry => (entry.1, entry.2.2)) = bus.traffic.toList := by
  unfold report
  rw [List.map_map]
  exact List.map_id _

/-- After a run without faults the report is in strictly increasing order of the addresses. It has
an entry for exactly the addresses that were accessed, with the numbers of reads and writes and the
bytes last read and written, 0 where there are none. What is no access changes nothing of it but
descriptions, and where no installed device answers, 0xFF is read. -/
theorem report_counts_accesses (host : W) (ops : List (BusOperation M R))
    (hfaultless : Faultless host ops) :
    let h := after (empty host) ops
    let log := Run.log perform (empty host) ops
    let counts (bus : Bus M R) := bus.report.map fun entry => (entry.1, entry.2.2)
    (h.device.report.map Prod.fst).Pairwise (· < ·) ∧
    (∀ address, address ∈ h.device.report.map Prod.fst ↔ ∃ op ∈ ops, op.accesses address) ∧
    (∀ address description traffic, (address, description, traffic) ∈ h.device.report →
      traffic.reads = ops.countP (·.readsAt address) ∧
      traffic.writes = ops.countP (·.writesAt address) ∧
      traffic.lastRead = (log.filterMap (BusOperation.byteRead? address)).getLast?.getD 0 ∧
      traffic.lastWrite = (ops.filterMap (·.byteWritten? address)).getLast?.getD 0) ∧
    (∀ op, ¬op.IsAccess → counts (perform h op).2.device = counts h.device) ∧
    ∀ address, h.device.live address = false → (read h address).1 = .ok 0xFF := by
  intro h log counts
  have hops : log.map Prod.fst = ops := Run.map_fst_log ..
  refine ⟨?_, fun address => ?_, fun address description traffic hentry => ?_, fun op hop => ?_,
    fun address hlive => read_of_not_live hlive⟩
  · rw [addresses_report]
    exact Std.TreeMap.ordered_keys.imp fun hlt => Std.compare_eq_lt.mp hlt
  · rw [addresses_report, Std.TreeMap.mem_keys, Std.TreeMap.mem_iff_isSome_getElem?]
    exact accessed_iff hfaultless address
  · obtain ⟨htraffic, _⟩ := mem_report_iff.mp hentry
    obtain ⟨_, hreads, hwrites, hlastRead, hlastWrite⟩ := tallies_after hfaultless address
    rw [htraffic] at hreads hwrites hlastRead hlastWrite
    refine ⟨?_, ?_, hlastRead, ?_⟩
    · rw [← hops, List.countP_map]
      exact hreads
    · rw [← hops, List.countP_map]
      exact hwrites
    · rw [← hops, List.filterMap_map]
      exact hlastWrite
  · simp only [counts, counts_report, traffic_of_not_access h hop]

/-- The accesses at an address are counted before a controller answers there, while it does and
after it was removed. -/
theorem report_counts_accesses_around_a_controller :
    let controller : Controller CopyOnWrite PatchPool := .ofPool 1 8
    let ops : List (BusOperation CopyOnWrite PatchPool) :=
      [.read 8, .installController controller, .read 8, .write 8 1, .write 9 4,
        .removeController, .write 8 2, .read 8]
    Faultless () ops ∧ 8 ∈ (after (empty ()) ops).device.report.map Prod.fst ∧
      ∀ description traffic, (8, description, traffic) ∈ (after (empty ()) ops).device.report →
        traffic.reads = 3 ∧ traffic.writes = 2 ∧ traffic.lastRead = 0xFF ∧
          traffic.lastWrite = 2 := by
  intro controller ops
  have hfaultless : Faultless () ops := by
    unfold Faultless
    decide +kernel
  obtain ⟨_, haddresses, hcounts, _⟩ := report_counts_accesses () ops hfaultless
  refine ⟨hfaultless, (haddresses 8).mpr (by decide), fun description traffic hentry => ?_⟩
  obtain ⟨hreads, hwrites, hlastRead, hlastWrite⟩ := hcounts 8 description traffic hentry
  refine ⟨hreads.trans (by decide), hwrites.trans (by decide), hlastRead.trans ?_,
    hlastWrite.trans (by decide)⟩
  decide +kernel

end Bus

end HardSector
