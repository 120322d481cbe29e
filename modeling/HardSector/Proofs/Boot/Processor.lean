import HardSector.Bytes
import HardSector.IoSpace

/-!
# The 8080 as far as a boot loader needs it

The instructions that the boot loader is made of, and what a processor does with its
registers, its flags, its memory and the devices at its I/O addresses when it executes them.
Registers that none of these instructions touches are left out.
-/

namespace HardSector.Processor

/-- The flags of the processor. -/
structure Flags where
  sign : Bool
  zero : Bool
  auxiliary : Bool
  parity : Bool
  carry : Bool
deriving DecidableEq, Repr

/-- A processor with its memory, amid the devices at its I/O addresses. -/
structure Machine (S : Type) where
  a : UInt8
  b : UInt8
  hl : UInt16
  sp : UInt16
  pc : UInt16
  flags : Flags
  memory : Bytes
  io : S

/-- The instructions, with the bytes that follow their codes. -/
inductive Instruction where
  | lxiSP (value : UInt16)
  | lxiH (value : UInt16)
  | mviA (value : UInt8)
  | mviB (value : UInt8)
  | output (port : UInt8)
  | input (port : UInt8)
  | ani (mask : UInt8)
  | jnz (target : UInt16)
  | jmp (target : UInt16)
  | movMA
  | inxH
  | dcrB
deriving DecidableEq, Repr

namespace Instruction

/-- How many bytes an instruction takes. -/
def length : Instruction → Nat
  | lxiSP _ | lxiH _ | jnz _ | jmp _ => 3
  | mviA _ | mviB _ | output _ | input _ | ani _ => 2
  | movMA | inxH | dcrB => 1

/-- A word of which the low byte comes first. -/
def word (low high : UInt8) : UInt16 := low.toUInt16 ||| (high.toUInt16 <<< 8)

/-- The instruction with a code, given the two bytes that follow the code in memory. -/
def decode (code first second : UInt8) : Option Instruction :=
  match code with
  | 0x31 => some (lxiSP (word first second))
  | 0x21 => some (lxiH (word first second))
  | 0x3E => some (mviA first)
  | 0x06 => some (mviB first)
  | 0xD3 => some (output first)
  | 0xDB => some (input first)
  | 0xE6 => some (ani first)
  | 0xC2 => some (jnz (word first second))
  | 0xC3 => some (jmp (word first second))
  | 0x77 => some movMA
  | 0x23 => some inxH
  | 0x05 => some dcrB
  | _ => none

end Instruction

/-- Whether a byte has an even number of ones. -/
def evenParity (byte : UInt8) : Bool :=
  (List.finRange 8).countP (fun i => byte.toBitVec[i]) % 2 == 0

/-- The flags after a logical operation on two bytes. -/
def Flags.afterAnd (x y : UInt8) : Flags where
  sign := (x &&& y).toBitVec.msb
  zero := x &&& y == 0
  auxiliary := (x ||| y) &&& 0x08 != 0
  parity := evenParity (x &&& y)
  carry := false

/-- The flags after a byte was counted down. The carry does not change. -/
def Flags.afterDecrement (flags : Flags) (result : UInt8) : Flags where
  sign := result.toBitVec.msb
  zero := result == 0
  auxiliary := result &&& 0x0F != 0x0F
  parity := evenParity result
  carry := flags.carry

namespace Machine

variable {S : Type}

/-- The byte at an address of the memory. -/
def byteAt (memory : Bytes) (address : UInt16) : UInt8 := memory.getD address.toNat 0

/-- The instruction that comes next, if the processor knows it. -/
def next? (m : Machine S) : Option Instruction :=
  Instruction.decode (byteAt m.memory m.pc) (byteAt m.memory (m.pc + 1))
    (byteAt m.memory (m.pc + 2))

variable [IoSpace S]

/-- Execute an instruction, with the program counter behind it already. The processor stops where a
device fails. -/
def execute (m : Machine S) : Instruction → Option (Machine S)
  | .lxiSP value => some { m with sp := value }
  | .lxiH value => some { m with hl := value }
  | .mviA value => some { m with a := value }
  | .mviB value => some { m with b := value }
  | .output port =>
    match IoSpace.write m.io port.toUInt16 m.a with
    | (.ok (), io) => some { m with io := io }
    | (.error _, _) => none
  | .input port =>
    match IoSpace.read m.io port.toUInt16 with
    | (.ok byte, io) => some { m with a := byte, io := io }
    | (.error _, _) => none
  | .ani mask => some { m with a := m.a &&& mask, flags := .afterAnd m.a mask }
  | .jnz target => some { m with pc := if m.flags.zero then m.pc else target }
  | .jmp target => some { m with pc := target }
  | .movMA => some { m with memory := m.memory.setIfInBounds m.hl.toNat m.a }
  | .inxH => some { m with hl := m.hl + 1 }
  | .dcrB => some { m with b := m.b - 1, flags := m.flags.afterDecrement (m.b - 1) }

/-- Execute the next instruction. -/
def step (m : Machine S) : Option (Machine S) :=
  match m.next? with
  | none => none
  | some instruction => { m with pc := m.pc + UInt16.ofNat instruction.length }.execute instruction

/-- Execution until the program counter is at an address, or a part of it. -/
inductive Reaches (stop : UInt16) : Machine S → Machine S → Prop
  | refl (m : Machine S) : Reaches stop m m
  | head {m m' last : Machine S} (hpc : m.pc ≠ stop) (hstep : m.step = some m')
      (hrest : Reaches stop m' last) : Reaches stop m last

/-- One part of an execution after another. -/
theorem Reaches.trans {stop : UInt16} {m m' last : Machine S} (hfirst : Reaches stop m m')
    (hrest : Reaches stop m' last) : Reaches stop m last := by
  induction hfirst with
  | refl m => exact hrest
  | head hpc hstep _ ih => exact .head hpc hstep (ih hrest)

/-- A byte goes to the device at an address. -/
theorem execute_output {m : Machine S} {port : UInt8} {io : S}
    (hwrite : IoSpace.write m.io port.toUInt16 m.a = (.ok (), io)) :
    m.execute (.output port) = some { m with io := io } := by
  unfold execute
  simp only [hwrite]

/-- A byte comes from the device at an address. -/
theorem execute_input {m : Machine S} {port byte : UInt8} {io : S}
    (hread : IoSpace.read m.io port.toUInt16 = (.ok byte, io)) :
    m.execute (.input port) = some { m with a := byte, io := io } := by
  unfold execute
  simp only [hread]

end Machine

end HardSector.Processor
