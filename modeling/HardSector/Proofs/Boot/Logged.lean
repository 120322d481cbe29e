import HardSector.Proofs.Boot.Steps

/-!
# Accesses written down

An I/O space can be used with all accesses to it written down, in order and with their
answers. That changes neither the answers nor the space. A boot that succeeds ends with the
read that found the start of a sector and the reads that transferred the sector.
-/

namespace HardSector

/-- An access to an I/O space and its answer. -/
inductive Access where
  | read (address : UInt16) (answer : Except Fault UInt8)
  | write (address : UInt16) (byte : UInt8) (answer : Except Fault Unit)

/-- An I/O space with the accesses to it so far. -/
structure Logged (S : Type) where
  state : S
  log : List Access

namespace Logged

variable {S : Type} [IoSpace S]

/-- Every access is written down. -/
instance : IoSpace (Logged S) where
  read l address :=
    let (answer, state) := IoSpace.read l.state address
    (answer, ⟨state, l.log ++ [.read address answer]⟩)
  write l address byte :=
    let (answer, state) := IoSpace.write l.state address byte
    (answer, ⟨state, l.log ++ [.write address byte answer]⟩)

/-- Writing accesses down does not change them. -/
theorem mirrors_state (r : Boot.Registers) :
    Boot.Mirrors r fun (l : Logged S) (s : S) => l.state = s where
  read hstate _ := by
    subst hstate
    exact ⟨rfl, rfl⟩
  write hstate _ _ _ := by
    subst hstate
    exact ⟨rfl, rfl⟩

variable {r : Boot.Registers} {l l' : Logged S}

/-- The log after a byte was read. -/
theorem log_input {address : UInt16} {byte : UInt8}
    (heq : Boot.input address l = (.ok byte, l')) :
    l'.log = l.log ++ [.read address (.ok byte)] := by
  have hread := Boot.input_eq_ok heq
  have hanswer : (IoSpace.read l.state address).1 = .ok byte := congrArg Prod.fst hread
  rw [← hanswer]
  exact (congrArg (fun result => result.2.log) hread).symm

/-- The log after a byte was written. -/
theorem log_output {address : UInt16} {byte : UInt8}
    (heq : Boot.output address byte l = (.ok (), l')) :
    l'.log = l.log ++ [.write address byte (.ok ())] := by
  have hwrite := Boot.output_eq_ok heq
  have hanswer : (IoSpace.write l.state address byte).1 = .ok () := congrArg Prod.fst hwrite
  rw [← hanswer]
  exact (congrArg (fun result => result.2.log) hwrite).symm

/-- The last access of a wait reads what was waited for. -/
theorem log_poll {address : UInt16} {wanted : UInt8 → Bool} {failure : BootError} {limit : Nat}
    {byte : UInt8} (heq : Boot.poll address wanted failure limit l = (.ok byte, l')) :
    ∃ early, l'.log = l.log ++ early ++ [.read address (.ok byte)] := by
  induction limit generalizing l with
  | zero => cases heq
  | succ limit ih =>
    obtain ⟨first, between, hinput, hrest⟩ := Boot.andThen_eq_ok heq
    have hlog := log_input hinput
    split at hrest
    · cases hrest
      exact ⟨[], by rw [hlog, List.append_nil]⟩
    · obtain ⟨early, hearly⟩ := ih hrest
      exact ⟨.read address (.ok first) :: early, by rw [hearly, hlog, List.append_assoc l.log]; rfl⟩

/-- Selecting a drive and loading its head takes nothing off the log. -/
theorem log_selectAndLoad {drive : UInt8}
    (heq : Boot.selectAndLoad r drive l = (.ok (), l')) : ∃ early, l'.log = l.log ++ early := by
  obtain ⟨_, selected, hselect, heq⟩ := Boot.andThen_eq_ok heq
  obtain ⟨_, headed, hhead, heq⟩ := Boot.andThen_eq_ok heq
  obtain ⟨_, waited, hwait, hdone⟩ := Boot.andThen_eq_ok heq
  obtain ⟨early, hlog⟩ := log_poll hwait
  cases hdone
  rw [log_output hhead, log_output hselect] at hlog
  exact ⟨_, by rw [hlog, List.append_assoc, List.append_assoc, List.append_assoc]⟩

/-- A transfer reads the bytes that it brings. -/
theorem log_transfer {count : Nat} {got bytes : Bytes}
    (heq : Boot.transfer r count got l = (.ok bytes, l')) :
    ∃ brought : List UInt8, brought.length = count ∧ bytes = got ++ brought.toArray ∧
      l'.log = l.log ++ brought.map fun byte => .read r.data (.ok byte) := by
  induction count generalizing l got with
  | zero =>
    cases heq
    exact ⟨[], rfl, Array.append_empty.symm, (List.append_nil _).symm⟩
  | succ count ih =>
    obtain ⟨byte, between, hinput, hrest⟩ := Boot.andThen_eq_ok heq
    obtain ⟨brought, hlength, hbytes, hlog⟩ := ih hrest
    refine ⟨byte :: brought, congrArg Nat.succ hlength, ?_, ?_⟩
    · simp [hbytes]
    · rw [hlog, log_input hinput, List.append_assoc]
      rfl

/-- A boot that succeeds reports the sector in the position register that it read last, and then
reads the bytes that it copies. -/
theorem log_load {memory memory' : Bytes} {report : BootReport}
    (heq : Boot.load r memory l = (.ok (report, memory'), l')) :
    ∃ early register, ∃ bytes : List UInt8, bytes.length = sectorSize ∧
      report = ⟨Position.sector register, sectorSize, 0⟩ ∧
      memory' = memory.splice 0 bytes.toArray ∧
      l'.log = l.log ++ early ++ .read r.sector (.ok register) ::
        bytes.map fun byte => .read r.data (.ok byte) := by
  obtain ⟨_, loaded, hselect, heq⟩ := Boot.andThen_eq_ok heq
  obtain ⟨register, found, hpoll, heq⟩ := Boot.andThen_eq_ok heq
  obtain ⟨bytes, transferred, htransfer, hdone⟩ := Boot.andThen_eq_ok heq
  obtain ⟨before, hbefore⟩ := log_selectAndLoad hselect
  obtain ⟨early, hearly⟩ := log_poll hpoll
  obtain ⟨brought, hlength, hbytes, hlog⟩ := log_transfer htransfer
  cases hdone
  refine ⟨before ++ early, register, brought, hlength, rfl, ?_, ?_⟩
  · rw [hbytes, Array.empty_append]
  · rw [hlog, hearly, hbefore]
    simp only [List.append_assoc, List.singleton_append]

end Logged

namespace Boot

variable {M R W : Type} [Medium M R W]

/-- A boot from a bus with its accesses written down. -/
def runLogged (memory : Bytes) : Step (Logged (Hosted (Bus M R) W)) (BootReport × Bytes) := fun l =>
  if memory.size < sectorSize then (.error (.memoryTooSmall memory.size), l)
  else
    match registers? l.state.device with
    | .error cause => (.error cause, l)
    | .ok r => load r memory l

/-- Writing the accesses of a boot down does not change the boot. -/
theorem runLogged_state (memory : Bytes) (l : Logged (Hosted (Bus M R) W)) :
    (runLogged memory l).1 = (run memory l.state).1 ∧
      (runLogged memory l).2.state = (run memory l.state).2 := by
  unfold runLogged run
  split
  · exact ⟨rfl, rfl⟩
  · cases registers? l.state.device with
    | error cause => exact ⟨rfl, rfl⟩
    | ok r => exact (Logged.mirrors_state r).load memory l l.state rfl

end Boot

end HardSector
