import HardSector.Bytes
import HardSector.Text.Hex

/-!
# Hex dumps

Bytes are shown in rows of sixteen: the address of the row, the bytes in hexadecimal, and the bytes
as text with a full stop for each one that does not print.
-/

namespace HardSector.HexDump

/-- The number of bytes in a full row. -/
def rowSize : Nat := 16

/-- The width of the hexadecimal field: two digits a byte and a blank between bytes. -/
def fieldWidth : Nat := 47

/-- The two hexadecimal digits of a byte. -/
def pair (byte : UInt8) : List Char :=
  (Text.hexDigits byte.toNat).leftpad 2 '0'

/-- The bytes of a row in hexadecimal, separated by blanks. -/
def pairs (row : List UInt8) : List Char :=
  [' '].intercalate (row.map pair)

/-- A byte as a character: itself from blank to tilde, and a full stop otherwise. -/
def glyph (byte : UInt8) : Char :=
  if 0x20 ≤ byte ∧ byte ≤ 0x7E then Char.ofNat byte.toNat else '.'

/-- One row, with the line end. -/
def line (address : Nat) (row : List UInt8) : String :=
  Text.hex 4 address ++ ": " ++ String.ofList ((pairs row).rightpad fieldWidth ' ') ++ "  " ++
    String.ofList (row.map glyph) ++ "\n"

/-- The rows of a dump. Addresses are sixty-four bits wide. -/
def lines (address : Nat) (bytes : List UInt8) : List String :=
  if bytes.isEmpty then []
  else
    line (address % UInt64.size) (bytes.take rowSize) ::
      lines (address + rowSize) (bytes.drop rowSize)
termination_by bytes.length
decreasing_by
  cases bytes with
  | nil => contradiction
  | cons byte bytes =>
      rw [List.length_drop, List.length_cons, rowSize]
      omega

/-- A dump of `bytes`, the first of which has the address `base`. -/
def dump (bytes : Bytes) (base : Nat) : String :=
  String.join (lines base bytes.toList)

end HardSector.HexDump
