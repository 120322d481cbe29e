/-!
# The drive function register

A control byte is eight independent commands, one a bit. Reading a byte as commands and packing
the commands again gives back the byte.
-/

namespace HardSector

/-- The commands of a control byte, from the lowest bit to the highest. -/
structure Control where
  stepIn : Bool := false
  stepOut : Bool := false
  headLoad : Bool := false
  headUnload : Bool := false
  interruptEnable : Bool := false
  interruptDisable : Bool := false
  headCurrentSwitch : Bool := false
  writeEnable : Bool := false
deriving DecidableEq, Repr

namespace Control

/-- The commands of a byte. -/
def ofByte (byte : UInt8) : Control where
  stepIn := byte.toBitVec[0]
  stepOut := byte.toBitVec[1]
  headLoad := byte.toBitVec[2]
  headUnload := byte.toBitVec[3]
  interruptEnable := byte.toBitVec[4]
  interruptDisable := byte.toBitVec[5]
  headCurrentSwitch := byte.toBitVec[6]
  writeEnable := byte.toBitVec[7]

/-- The commands from the lowest bit to the highest. -/
def toList (c : Control) : List Bool :=
  [c.stepIn, c.stepOut, c.headLoad, c.headUnload, c.interruptEnable, c.interruptDisable,
    c.headCurrentSwitch, c.writeEnable]

/-- The byte that gives exactly these commands. -/
def toByte (c : Control) : UInt8 :=
  UInt8.ofBitVec (BitVec.ofBoolListLE c.toList)

/-- Packing the commands of a byte gives back the byte. -/
@[simp] theorem toByte_ofByte (byte : UInt8) : (ofByte byte).toByte = byte := by
  apply UInt8.toBitVec_inj.mp
  have hall : ∀ bits : BitVec 8, (ofByte ⟨bits⟩).toByte.toBitVec = bits := by decide +kernel
  exact hall byte.toBitVec

/-- The packed byte gives the commands it was packed from. -/
@[simp] theorem ofByte_toByte (c : Control) : ofByte c.toByte = c := by
  obtain ⟨a, b, c, d, e, f, g, h⟩ := c
  cases a <;> cases b <;> cases c <;> cases d <;> cases e <;> cases f <;> cases g <;> cases h <;>
    decide

end Control

end HardSector
