import HardSector.LoaderRom
import HardSector.Proofs.Boot.Finding
import HardSector.Proofs.Boot.Logged
import HardSector.Proofs.Boot.Processor

/-!
# The boot loader as a program

A processor that executes the loader from its first instruction does with the devices, access
for access, what a boot does, and leaves the memory as a boot leaves it. This holds in any
I/O space in which the boot succeeds; on a bus with a disk in drive 0 it does.
-/

namespace HardSector

open Processor (Machine Instruction Flags)

namespace LoaderRom

/-! ## The loader in memory -/

/-- A full memory with the loader where it normally lies. -/
structure Resident (memory : Bytes) : Prop where
  size_eq : memory.size = 65536
  code_eq : ∀ i < 41, memory.getD (0xFF00 + i) 0 = code.getD i 0

/-- The loader is resident once it was put into a full memory. -/
theorem resident_of_load {blank memory : Bytes} (hsize : blank.size = 65536)
    (hload : load blank address = .ok memory) : Resident memory := by
  have hmemory := size_of_load hload
  unfold load at hload
  split at hload
  · obtain rfl := Except.ok.inj hload
    refine ⟨hmemory.trans hsize, fun i hi => ?_⟩
    have haddress : address.toNat = 0xFF00 := rfl
    rw [Bytes.getD_splice, haddress, size_code, if_pos (by omega), Nat.add_sub_cancel_left]
  · cases hload

/-- A byte below the loader leaves it resident. -/
theorem Resident.setIfInBounds {memory : Bytes} (hr : Resident memory) {i : Nat}
    (hi : i < 0xFF00) (byte : UInt8) : Resident (memory.setIfInBounds i byte) := by
  constructor
  · rw [Array.size_setIfInBounds, hr.size_eq]
  · intro j hj
    rw [← hr.code_eq j hj, Array.getD_eq_getD_getElem?, Array.getElem?_setIfInBounds,
      if_neg (by omega), Array.getD_eq_getD_getElem?]

/-! ## Its instructions -/

/-- Where an offset in the loader is in memory. -/
def place (i : Nat) : UInt16 := address + UInt16.ofNat i

/-- From one offset to another. -/
theorem place_add (i j : Nat) : place i + UInt16.ofNat j = place (i + j) := by
  unfold place
  rw [UInt16.add_assoc, UInt16.ofNat_add]

/-- The loader does not wrap around the end of memory. -/
theorem toNat_place {i : Nat} (hi : i < 41) : (place i).toNat = 0xFF00 + i := by
  have haddress : address.toNat = 0xFF00 := rfl
  unfold place
  rw [UInt16.toNat_add, UInt16.toNat_ofNat_of_lt' (Nat.lt_trans hi (by decide)), haddress]
  omega

/-- The instruction at an offset in the loader. -/
def instruction? (i : Nat) : Option Instruction :=
  Instruction.decode (code.getD i 0) (code.getD (i + 1) 0) (code.getD (i + 2) 0)

/-- No instruction starts in the last two bytes of the loader or behind it. -/
theorem le_of_instruction? {i : Nat} {instruction : Instruction}
    (hcode : instruction? i = some instruction) : i ≤ 38 := by
  by_contra hgt
  have hzero : code.getD i 0 = 0 := by
    rcases Nat.lt_or_ge i 41 with hlt | hge
    · obtain rfl | rfl : i = 39 ∨ i = 40 := by omega
      · rfl
      · rfl
    · rw [Array.getD_eq_getD_getElem?, Array.getElem?_eq_none hge]
      rfl
  unfold instruction? at hcode
  rw [hzero] at hcode
  cases hcode

variable {S : Type} [IoSpace S] {m m' last : Machine S}

/-- The processor executes the instructions of the loader. -/
theorem Resident.step (hr : Resident m.memory) {i : Nat} {instruction : Instruction}
    (hcode : instruction? i = some instruction) (hpc : m.pc = place i) :
    m.step = { m with pc := place (i + instruction.length) }.execute instruction := by
  have hi := le_of_instruction? hcode
  have hbyte {j : Nat} (hj : j < 41) : Machine.byteAt m.memory (place j) = code.getD j 0 := by
    unfold Machine.byteAt
    rw [toNat_place hj]
    exact hr.code_eq j hj
  have hnext : m.next? = some instruction := by
    have hone : m.pc + 1 = place (i + 1) := by
      rw [hpc]
      exact place_add i 1
    have htwo : m.pc + 2 = place (i + 2) := by
      rw [hpc]
      exact place_add i 2
    unfold Machine.next?
    rw [hone, htwo, hpc, hbyte (by omega), hbyte (by omega), hbyte (by omega)]
    exact hcode
  unfold Machine.step
  simp only [hnext, hpc, place_add]

/-- Execution goes on after an instruction of the loader. -/
theorem Resident.head (hr : Resident m.memory) {i : Nat} {instruction : Instruction}
    (hcode : instruction? i = some instruction) (hpc : m.pc = place i)
    (hexecute :
      { m with pc := place (i + instruction.length) }.execute instruction = some m')
    (hrest : Machine.Reaches 0 m' last) : Machine.Reaches 0 m last := by
  refine .head ?_ ((hr.step hcode hpc).trans hexecute) hrest
  rw [hpc]
  intro hzero
  have hplace := toNat_place (Nat.lt_of_le_of_lt (le_of_instruction? hcode) (by decide))
  rw [hzero] at hplace
  have hnat : (0 : UInt16).toNat = 0 := rfl
  omega

/-! ## Its parts -/

/-- The loader selects drive 0 and gives the command to load its head. -/
theorem reaches_wait (hr : Resident m.memory) (hpc : m.pc = address) {selected io : S}
    (hselect : IoSpace.write m.io 8 0 = (.ok (), selected))
    (hhead : IoSpace.write selected 9 4 = (.ok (), io)) :
    Machine.Reaches 0 m { m with a := 4, sp := 0, pc := place 11, io := io } := by
  refine hr.head (i := 0) rfl hpc rfl ?_
  refine Resident.head (i := 3) hr rfl rfl rfl ?_
  refine Resident.head (i := 5) hr rfl rfl (Machine.execute_output hselect) ?_
  refine Resident.head (i := 7) hr rfl rfl rfl ?_
  refine Resident.head (i := 9) hr rfl rfl (Machine.execute_output hhead) ?_
  exact .refl _

/-- The loader sets up the copy of a sector to the start of memory. -/
theorem reaches_ready (hr : Resident m.memory) (hpc : m.pc = place 18) :
    Machine.Reaches 0 m { m with b := 137, hl := 0, pc := place 23 } := by
  refine hr.head (i := 18) rfl hpc rfl ?_
  refine Resident.head (i := 20) hr rfl rfl rfl ?_
  exact .refl _

/-- One look of a loop that waits until bits of a register are clear. -/
theorem reaches_look (hr : Resident m.memory) {i : Nat} {port mask : UInt8}
    (hinput : instruction? i = some (.input port))
    (hmask : instruction? (i + 2) = some (.ani mask))
    (hjump : instruction? (i + 4) = some (.jnz (place i))) (hpc : m.pc = place i) {byte : UInt8}
    {io : S} (hread : IoSpace.read m.io port.toUInt16 = (.ok byte, io)) :
    Machine.Reaches 0 m
      { m with
        a := byte &&& mask, flags := .afterAnd byte mask, io := io
        pc := if byte &&& mask == 0 then place (i + 7) else place i } := by
  refine hr.head hinput hpc (Machine.execute_input hread) ?_
  refine Resident.head hr hmask rfl rfl ?_
  refine Resident.head hr hjump rfl rfl ?_
  exact .refl _

/-- A loop that waits until bits of a register are clear ends with the wait of a boot. -/
theorem reaches_found (hr : Resident m.memory) {i : Nat} {port mask : UInt8}
    (hinput : instruction? i = some (.input port))
    (hmask : instruction? (i + 2) = some (.ani mask))
    (hjump : instruction? (i + 4) = some (.jnz (place i))) (hpc : m.pc = place i)
    {wanted : UInt8 → Bool} (hwanted : ∀ byte, wanted byte = (byte &&& mask == 0))
    {failure : BootError} {limit : Nat} {byte : UInt8} {io : S}
    (hpoll : Boot.poll port.toUInt16 wanted failure limit m.io = (.ok byte, io)) :
    Machine.Reaches 0 m
      { m with
        a := byte &&& mask, flags := .afterAnd byte mask, io := io, pc := place (i + 7) } := by
  induction limit generalizing m with
  | zero => cases hpoll
  | succ limit ih =>
    obtain ⟨first, between, hread, hrest⟩ := Boot.andThen_eq_ok hpoll
    have hlook := reaches_look hr hinput hmask hjump hpc (Boot.input_eq_ok hread)
    rw [hwanted] at hrest
    cases hclear : first &&& mask == 0 with
    | true =>
      rw [hclear, if_pos rfl] at hrest hlook
      cases hrest
      exact hlook
    | false =>
      rw [hclear, if_neg Bool.false_ne_true] at hrest hlook
      exact hlook.trans (ih hr rfl hrest)

/-- A byte is copied behind those that were copied. -/
theorem setIfInBounds_splice {memory got : Bytes} (hsize : got.size < memory.size) (byte : UInt8) :
    (memory.splice 0 got).setIfInBounds got.size byte = memory.splice 0 (got.push byte) := by
  have hstart (window : Bytes) :
      memory.splice 0 window = window ++ memory.extract window.size memory.size := by
    simp [Bytes.splice, Bytes.zeros]
  rw [hstart, hstart]
  apply Array.ext_getElem?
  intro i
  rw [Array.getElem?_setIfInBounds, Array.getElem?_append, Array.getElem?_append,
    Array.size_append, Array.size_push, Array.size_extract, Array.getElem?_push,
    Array.getElem?_extract, Array.getElem?_extract]
  rcases Nat.lt_trichotomy i got.size with hlt | rfl | hgt
  · rw [if_neg (by omega), if_pos hlt, if_pos (by omega), if_neg (by omega)]
  · rw [if_pos rfl, if_pos (by omega), if_pos (by omega), if_pos rfl]
  · have hbehind : ¬i < got.size + 1 := by omega
    have hplace : got.size + (i - got.size) = got.size + 1 + (i - (got.size + 1)) := by omega
    rw [if_neg (by omega), if_neg (by omega), if_neg hbehind, hplace]
    exact if_congr (by omega) rfl rfl

/-- One turn of the loop that copies a sector. -/
theorem reaches_copy (hr : Resident m.memory) (hpc : m.pc = place 30) {byte : UInt8} {io : S}
    (hread : IoSpace.read m.io 10 = (.ok byte, io)) (hlow : m.hl.toNat < 0xFF00) :
    Machine.Reaches 0 m
      { m with
        a := byte, memory := m.memory.setIfInBounds m.hl.toNat byte, hl := m.hl + 1, b := m.b - 1
        flags := m.flags.afterDecrement (m.b - 1), io := io
        pc := if m.b - 1 == 0 then place 38 else place 30 } := by
  have hstored := hr.setIfInBounds hlow byte
  refine hr.head (i := 30) rfl hpc (Machine.execute_input hread) ?_
  refine Resident.head (i := 32) hr rfl rfl rfl ?_
  refine Resident.head (i := 33) hstored rfl rfl rfl ?_
  refine Resident.head (i := 34) hstored rfl rfl rfl ?_
  refine Resident.head (i := 35) hstored rfl rfl rfl ?_
  exact .refl _

/-- The processor is in the loop that copies a sector, or behind it: some bytes are at the start of
what was in memory, and some are still to come. -/
structure Copying (base got : Bytes) (count : Nat) (m : Machine S) : Prop where
  resident : Resident m.memory
  pc_eq : m.pc = if count = 0 then place 38 else place 30
  memory_eq : m.memory = base.splice 0 got
  hl_eq : m.hl = UInt16.ofNat got.size
  b_eq : m.b = UInt8.ofNat count
  size_lt : got.size + count < 256

/-- One turn of the loop copies one byte. -/
theorem Copying.turn {base got : Bytes} {count : Nat} (hc : Copying base got (count + 1) m)
    {byte : UInt8} {io : S} (hread : IoSpace.read m.io 10 = (.ok byte, io)) :
    ∃ m', Machine.Reaches 0 m m' ∧ Copying base (got.push byte) count m' ∧ m'.io = io := by
  have hsize := hc.size_lt
  have hhl : m.hl.toNat = got.size := by
    rw [hc.hl_eq, UInt16.toNat_ofNat_of_lt' (show got.size < 65536 by omega)]
  have hbase : got.size < base.size := by
    have hfull := hc.resident.size_eq
    rw [hc.memory_eq, Bytes.size_splice] at hfull
    omega
  have hleft : m.b - 1 = UInt8.ofNat count := by
    rw [hc.b_eq, UInt8.ofNat_add]
    exact UInt8.add_sub_cancel _ _
  have hlow : m.hl.toNat < 0xFF00 := by omega
  have hturn := reaches_copy hc.resident hc.pc_eq hread hlow
  refine ⟨_, hturn, ⟨hc.resident.setIfInBounds hlow byte, ?_, ?_, ?_, hleft, ?_⟩, rfl⟩
  · have hdone : (m.b - 1 == 0) = decide (count = 0) := by
      rw [hleft, Bool.eq_iff_iff, beq_iff_eq, decide_eq_true_iff, ← UInt8.toNat_inj,
        UInt8.toNat_ofNat_of_lt' (show count < 256 by omega)]
      rfl
    simp only [hdone, decide_eq_true_iff]
  · rw [← setIfInBounds_splice hbase, ← hc.memory_eq, ← hhl]
  · rw [Array.size_push, UInt16.ofNat_add, ← hc.hl_eq]
    rfl
  · rw [Array.size_push]
    omega

/-- The loop copies the bytes that a boot transfers. -/
theorem Copying.done {base got bytes : Bytes} {count : Nat} (hc : Copying base got count m)
    {io : S} (htransfer : Boot.transfer ⟨8, 9, 10⟩ count got m.io = (.ok bytes, io)) :
    ∃ m', Machine.Reaches 0 m m' ∧ Copying base bytes 0 m' ∧ m'.io = io := by
  induction count generalizing m got with
  | zero =>
    cases htransfer
    exact ⟨m, .refl m, hc, rfl⟩
  | succ count ih =>
    obtain ⟨byte, between, hinput, hrest⟩ := Boot.andThen_eq_ok htransfer
    obtain ⟨m', hturn, hc', rfl⟩ := hc.turn (Boot.input_eq_ok hinput)
    obtain ⟨last, hdone, hlast, hio⟩ := ih hc' hrest
    exact ⟨last, hturn.trans hdone, hlast, hio⟩

/-! ## The whole loader -/

/-- The loader selects drive 0 and loads its head as a boot does, and then gets ready for a sector.
-/
theorem reaches_selected (hr : Resident m.memory) (hpc : m.pc = address) {io : S}
    (hselect : Boot.selectAndLoad ⟨8, 9, 10⟩ 0 m.io = (.ok (), io)) :
    ∃ m', Machine.Reaches 0 m m' ∧ m'.pc = place 23 ∧ m'.b = 137 ∧ m'.hl = 0 ∧
      m'.memory = m.memory ∧ m'.io = io := by
  obtain ⟨_, selected, hdrive, hselect⟩ := Boot.andThen_eq_ok hselect
  obtain ⟨_, commanded, hhead, hselect⟩ := Boot.andThen_eq_ok hselect
  obtain ⟨status, waited, hstatus, hdone⟩ := Boot.andThen_eq_ok hselect
  cases hdone
  have hwait := reaches_wait hr hpc (Boot.output_eq_ok hdrive) (Boot.output_eq_ok hhead)
  have hfound := reaches_found (i := 11)
    (m := { m with a := 4, sp := 0, pc := place 11, io := commanded }) hr
    (show instruction? 11 = some (.input 8) from rfl)
    (show instruction? 13 = some (.ani 4) from rfl) rfl rfl (fun _ => rfl) hstatus
  have hready := hwait.trans (hfound.trans (reaches_ready hr rfl))
  exact ⟨_, hready, rfl, rfl, rfl, rfl, rfl⟩

/-- Where a boot succeeds, the loader jumps to the start of memory, having left memory and devices
as the boot leaves them. -/
theorem reaches_entry (hr : Resident m.memory) (hpc : m.pc = address) {report : BootReport}
    {memory : Bytes} {io : S}
    (hload : Boot.load ⟨8, 9, 10⟩ m.memory m.io = (.ok (report, memory), io)) :
    ∃ last, Machine.Reaches 0 m last ∧ last.pc = 0 ∧ last.memory = memory ∧ last.io = io := by
  obtain ⟨_, headed, hselect, hload⟩ := Boot.andThen_eq_ok hload
  obtain ⟨register, found, hposition, hload⟩ := Boot.andThen_eq_ok hload
  obtain ⟨bytes, copied, htransfer, hdone⟩ := Boot.andThen_eq_ok hload
  cases hdone
  obtain ⟨ready, hready, hwaits, hb, hhl, hmemory, rfl⟩ := reaches_selected hr hpc hselect
  rw [← hmemory] at hr ⊢
  have hfound := reaches_found (i := 23) hr
    (show instruction? 23 = some (.input 9) from rfl)
    (show instruction? 25 = some (.ani 1) from rfl) rfl hwaits (fun _ => rfl) hposition
  have hcopying : Copying ready.memory #[] 137
      { ready with
        a := register &&& 1, flags := .afterAnd register 1, io := found, pc := place 30 } := by
    refine ⟨hr, rfl, ?_, hhl, hb, by decide⟩
    simp [Bytes.splice, Bytes.zeros]
  obtain ⟨behind, hcopied, hbehind, rfl⟩ := hcopying.done htransfer
  have hjump : Machine.Reaches 0 behind { behind with pc := 0 } := by
    refine hbehind.resident.head (i := 38) rfl hbehind.pc_eq rfl ?_
    exact .refl _
  exact ⟨_, hready.trans (hfound.trans (hcopied.trans hjump)), rfl, hbehind.memory_eq, rfl⟩

end LoaderRom

/-! ## Boots that succeed -/

namespace Controller

variable {M R W : Type} [Medium M R W] {r : Boot.Registers} {h : Hosted (Controller M R) W}

/-- Bytes are transferred as long as the pointer of the selected drive is within its buffer. -/
theorem transfer_succeeds (hl : Located r h.device)
    (hinside : h.device.selectedDrive.pointer < bufferSize) (count : Nat) (got : Bytes) :
    ∃ bytes h', Boot.transfer r count got h = (.ok bytes, h') := by
  induction count generalizing h got with
  | zero => exact ⟨got, h, rfl⟩
  | succ count ih =>
    have hinside : (bay h h.device.selected).drive.pointer < bufferSize := hinside
    obtain ⟨byte, hbyte, hnext⟩ := Bay.readByte_of_inside hinside
    have hreply : (obey h .read).1 = .byte byte := congrArg Reply.ofResult hbyte
    have hself : bay (obey h .read).2 h.device.selected =
        (bay h h.device.selected).readByte.2 :=
      bay_onBay_self _ (fun bay => bay.readByte.2) h
    rw [← hself] at hnext
    rw [Boot.transfer, Boot.andThen_of_ok (hl.input_data hreply)]
    exact ih (hl.obey .read) hnext (got.push byte)

/-- A boot from a loaded drive 0 succeeds, whatever the medium does. -/
theorem load_succeeds (hl : Located r h.device) (hsound : Sound h) (hhonest : Honest h)
    (hloaded : (bay h 0).drive.isLoaded = true) (memory : Bytes) :
    ∃ result h', Boot.load r memory h = (.ok result, h') := by
  obtain ⟨placed, hseeking, hpositioned, hload⟩ :=
    load_over_sector hl hsound hhonest hloaded memory
  obtain ⟨bytes, h', htransfer⟩ := transfer_succeeds hseeking.located
    (hpositioned.pointer_eq ▸ Nat.zero_lt_succ _) sectorSize #[]
  exact ⟨_, h', hload.trans (Boot.andThen_of_ok htransfer)⟩

end Controller

namespace Boot

variable {M R W : Type} [Medium M R W]

/-- A boot from a bus succeeds if there is a disk in drive 0 of the controller that is wired to it,
also when its accesses are written down. -/
theorem runLogged_succeeds {r : Registers} {c : Hosted (Controller M R) W}
    {l : Logged (Hosted (Bus M R) W)} (hwired : Bus.Wired r l.state c)
    (hused : Controller.Used W c.device) (hloaded : (Controller.bay c 0).drive.isLoaded = true)
    {memory : Bytes} (hroom : sectorSize ≤ memory.size) :
    ∃ result l', load r memory l = (.ok result, l') ∧ runLogged memory l = (.ok result, l') := by
  obtain ⟨result, c', hboot⟩ := Controller.load_succeeds hwired.located
    (hused.sound c.host c.notices) (hused.honest c.host c.notices) hloaded memory
  have hbus := ((Bus.mirrors_wired r).load memory l.state c hwired).1
  have hlogged := ((Logged.mirrors_state r).load memory l l.state rfl).1
  rw [hbus, hboot] at hlogged
  refine ⟨result, (load r memory l).2, Prod.ext hlogged rfl, ?_⟩
  unfold runLogged
  rw [if_neg (Nat.not_lt.mpr hroom), hwired.registers?]
  exact Prod.ext hlogged rfl

end Boot

namespace LoaderRom

variable {M R W : Type} [Medium M R W]

/-- The loader and the boot agree. Take any run of a bus on which controllers in use are installed,
after which a controller with a disk in drive 0 is wired to addresses 8 to 10, over any media, and
a processor that is at the start of the loader in a full memory. It comes to the start of memory,
and what it did to the bus until then, access for access, and to memory is what the boot does. The
boot succeeds and reports the sector in the position register that was read last; the bytes read
after that are in memory, and the rest of memory is as it was. -/
theorem loader_agrees_with_boot (host : W) (ops : List (BusOperation M R))
    (hused : ∀ installed, .installController installed ∈ ops → Controller.Used W installed)
    {c : Hosted (Controller M R) W}
    (hwired : Bus.Wired ⟨8, 9, 10⟩ (Bus.after (Bus.empty host) ops) c)
    (hloaded : (Controller.bay c 0).drive.isLoaded = true)
    {m : Machine (Logged (Hosted (Bus M R) W))}
    (hio : m.io = ⟨Bus.after (Bus.empty host) ops, []⟩) (hpc : m.pc = address) {blank : Bytes}
    (hsize : blank.size = 65536) (hload : load blank address = .ok m.memory) :
    ∃ last register report, ∃ early : List Access, ∃ bytes : List UInt8,
      Machine.Reaches 0 m last ∧ last.pc = 0 ∧
      Boot.runLogged m.memory m.io = (.ok (report, last.memory), last.io) ∧
      Boot.run m.memory m.io.state = (.ok (report, last.memory), last.io.state) ∧
      report = ⟨Position.sector register, 137, 0⟩ ∧
      last.io.log = early ++ .read 9 (.ok register) :: bytes.map (fun byte => .read 10 (.ok byte)) ∧
      bytes.length = 137 ∧ last.memory = m.memory.splice 0 bytes.toArray ∧
      last.memory.size = 65536 ∧ ∀ i, 137 ≤ i → last.memory.getD i 0 = m.memory.getD i 0 := by
  have hresident := resident_of_load hsize hload
  have hroom : sectorSize ≤ m.memory.size := by
    rw [hresident.size_eq]
    decide
  obtain ⟨⟨report, memory⟩, io, hload, hrun⟩ := Boot.runLogged_succeeds (l := m.io)
    (show Bus.Wired ⟨8, 9, 10⟩ m.io.state c by rw [hio]; exact hwired)
    (Bus.used_after hused hwired.hosted) hloaded hroom
  obtain ⟨last, hreaches, hentry, rfl, rfl⟩ := reaches_entry hresident hpc hload
  obtain ⟨early, register, bytes, hlength, hreport, hmemory, hlog⟩ := Logged.log_load hload
  obtain ⟨houtcome, hstate⟩ := Boot.runLogged_state m.memory m.io
  rw [hrun] at houtcome hstate
  refine ⟨last, register, report, early, bytes, hreaches, hentry, hrun,
    Prod.ext houtcome.symm hstate.symm, hreport, ?_, hlength, hmemory, ?_, fun i hi => ?_⟩
  · rw [hlog, hio, List.nil_append]
  · rw [hmemory, Bytes.size_splice, hresident.size_eq, List.size_toArray, hlength]
    decide
  · rw [hmemory, Bytes.getD_splice, List.size_toArray, hlength, if_neg]
    rintro ⟨-, hlt⟩
    change i < 0 + 137 at hlt
    omega

/-- The loader boots from a short image after a byte was written to it and another drive was
selected. -/
theorem loader_agrees_with_boot_after_a_write :
    let ops : List (BusOperation CopyOnWrite PatchPool) :=
      [.installController (.ofPool 1 8), .operate (.load 0 { image := #[1, 2, 3] }), .read 9,
        .write 10 7, .write 8 2]
    let h := Bus.after (Bus.empty ()) ops
    let memory := (Bytes.zeros 65536).splice 0xFF00 code
    let m : Machine (Logged (Hosted (Bus CopyOnWrite PatchPool) Unit)) :=
      ⟨1, 2, 3, 4, address, ⟨true, true, true, true, true⟩, memory, ⟨h, []⟩⟩
    ∃ last report, Machine.Reaches 0 m last ∧ last.pc = 0 ∧
      Boot.run memory h = (.ok (report, last.memory), last.io.state) := by
  intro ops h memory m
  obtain ⟨c, hwired⟩ : ∃ c, Bus.Wired ⟨8, 9, 10⟩ h c := by
    refine Bus.exists_wired (by decide +kernel) fun register => ?_
    cases register <;> decide +kernel
  have hloaded : (Bus.hosted? h).map (fun c => (Controller.bay c 0).drive.isLoaded) =
      some true := by
    decide +kernel
  rw [hwired.hosted, Option.map_some, Option.some.injEq] at hloaded
  have hblank : (Bytes.zeros 65536).size = 65536 := Array.size_replicate
  have hload : load (Bytes.zeros 65536) address = .ok memory := by
    have hfits : address.toNat + code.size ≤ (Bytes.zeros 65536).size := by
      rw [hblank]
      decide
    unfold load
    rw [if_pos hfits]
    rfl
  have hused : ∀ installed, .installController installed ∈ ops →
      Controller.Used Unit installed := by
    intro installed hmem
    obtain rfl : installed = .ofPool 1 8 := by simpa [ops] using hmem
    exact .new _ _
  obtain ⟨last, _, report, _, _, hreaches, hentry, _, hrun, _⟩ :=
    loader_agrees_with_boot () ops hused hwired hloaded (m := m) rfl rfl hblank hload
  exact ⟨last, report, hreaches, hentry, hrun⟩

end LoaderRom

end HardSector
