import HardSector.Bytes
import HardSector.Text.Hex

/-!
# The boot loader ROM

A program for the 8080 that selects drive 0, loads the head, waits for the head and for the start of
a sector, reads the sector to address 0 and jumps there. It expects the controller at I/O addresses
8 to 10 and itself at FF00.
-/

namespace HardSector.LoaderRom

/-- Where the loader normally lies in memory. -/
def address : UInt16 := 0xFF00

/-- The bytes of the loader. -/
def code : Bytes := #[
  0x31, 0x00, 0x00,  -- FF00  LXI SP,0000
  0x3E, 0x00,        -- FF03  MVI A,00
  0xD3, 0x08,        -- FF05  OUT 08        select drive 0
  0x3E, 0x04,        -- FF07  MVI A,04
  0xD3, 0x09,        -- FF09  OUT 09        load the head
  0xDB, 0x08,        -- FF0B  IN 08         drive status
  0xE6, 0x04,        -- FF0D  ANI 04
  0xC2, 0x0B, 0xFF,  -- FF0F  JNZ FF0B      wait for the head
  0x06, 0x89,        -- FF12  MVI B,89      bytes of a sector
  0x21, 0x00, 0x00,  -- FF14  LXI H,0000
  0xDB, 0x09,        -- FF17  IN 09         sector position
  0xE6, 0x01,        -- FF19  ANI 01
  0xC2, 0x17, 0xFF,  -- FF1B  JNZ FF17      wait for the start of a sector
  0xDB, 0x0A,        -- FF1E  IN 0A         data
  0x77,              -- FF20  MOV M,A
  0x23,              -- FF21  INX H
  0x05,              -- FF22  DCR B
  0xC2, 0x1E, 0xFF,  -- FF23  JNZ FF1E
  0xC3, 0x00, 0x00]  -- FF26  JMP 0000

/-- The loader does not fit into memory. -/
structure Misfit where
  address : UInt16
  memory : Nat
deriving DecidableEq, Repr

/-- The text of a misfit. -/
def Misfit.message (misfit : Misfit) : String :=
  s!"Boot loader at {Text.hex 4 misfit.address.toNat} does not fit in " ++
    s!"{misfit.memory} bytes of memory"

/-- Put the loader into memory. -/
def load (memory : Bytes) (address : UInt16) : Except Misfit Bytes :=
  if address.toNat + code.size ≤ memory.size then .ok (memory.splice address.toNat code)
  else .error ⟨address, memory.size⟩

@[simp] theorem size_code : code.size = 41 := rfl

/-- Memory keeps its size when the loader is put into it. -/
theorem size_of_load {memory loaded : Bytes} {address : UInt16}
    (hload : load memory address = .ok loaded) : loaded.size = memory.size := by
  unfold load at hload
  split at hload
  · rename_i hfit
    obtain rfl := Except.ok.inj hload
    rw [Bytes.size_splice]
    omega
  · contradiction

end HardSector.LoaderRom
