import HardSector.HexDump
import HardSector.Proofs.Text.Splitting

/-!
# Reading a hex dump back

Every line of a dump shows sixteen bytes, the last one perhaps fewer, behind their address: in a
field of hexadecimal pairs and once more as text. The fields alone give all bytes back, whatever
stands in the text beside them, so different bytes never have the same dump.
-/

namespace HardSector

namespace Text

/-! ## Digits and separators -/

/-- Hexadecimal digits are those of a number in base sixteen, in upper case. -/
theorem hexDigits_eq_toDigits (n : Nat) :
    hexDigits n = (Nat.toDigits 16 n).map Char.toUpper := by
  induction n using hexDigits.induct with
  | case1 n hn =>
    rw [hexDigits, if_pos hn, Nat.toDigits_of_lt_base hn]
    rfl
  | case2 n hn ih =>
    have hlast : Nat.toDigits 16 n = Nat.toDigits 16 (n / 16) ++ [Nat.digitChar (n % 16)] := by
      rw [Nat.toDigits_eq_if (by decide), if_neg hn]
    rw [hexDigits, if_neg hn, ih, hlast, List.map_append]
    rfl

/-- A padded number has no other characters than hexadecimal digits. -/
theorem exists_of_mem_leftpad {width n : Nat} {c : Char}
    (hc : c ∈ (hexDigits n).leftpad width '0') : ∃ d < 16, c = hexDigit d := by
  rw [List.leftpad, List.mem_append] at hc
  rcases hc with hzero | hdigit
  · exact ⟨0, by decide, List.eq_of_mem_replicate hzero⟩
  · induction n using hexDigits.induct with
    | case1 n hn =>
      rw [hexDigits, if_pos hn, List.mem_singleton] at hdigit
      exact ⟨n, hn, hdigit⟩
    | case2 n hn ih =>
      rw [hexDigits, if_neg hn, List.mem_append, List.mem_singleton] at hdigit
      rcases hdigit with hhigh | hlow
      · exact ih hhigh
      · exact ⟨n % 16, Nat.mod_lt _ (by decide), hlow⟩

/-- No hexadecimal digit divides the parts of a dump. -/
theorem not_mem_leftpad {width n : Nat} {sep : Char} (hsep : sep ∈ [' ', ':', '\n']) :
    sep ∉ (hexDigits n).leftpad width '0' := by
  intro hmem
  obtain ⟨d, hd, hdigit⟩ := exists_of_mem_leftpad hmem
  have hall : ∀ d : Fin 16, hexDigit d ∉ [' ', ':', '\n'] := by decide
  exact hall ⟨d, hd⟩ (hdigit ▸ hsep)

end Text

namespace HexDump

/-! ## Reading -/

/-- The byte that two hexadecimal digits denote. -/
def readPair : List Char → Option UInt8
  | [high, low] => (Text.readHex [high, low]).map UInt8.ofNat
  | _ => none

/-- The bytes in a hexadecimal field, which are pairs of digits with blanks between and behind
them. -/
def readField (field : List Char) : Option (List UInt8) :=
  ((field.splitOn ' ').filter fun piece => !piece.isEmpty).mapM readPair

/-- The bytes in a line, read from the field that stands a blank behind the address. -/
def readLine (line : List Char) : Option (List UInt8) :=
  readField (((Text.behind ':' line).drop 1).take fieldWidth)

/-- The lines of a text that ends with the last of them. -/
def textLines (text : String) : List (List Char) := (text.toList.splitOn '\n').dropLast

/-- The bytes in all lines of a dump. -/
def read (text : String) : Option (List UInt8) :=
  ((textLines text).mapM readLine).map List.flatten

/-! ## Fields -/

/-- The digits of a byte are those of its two halves. -/
theorem pair_eq (byte : UInt8) :
    pair byte = [Text.hexDigit (byte.toNat / 16), Text.hexDigit (byte.toNat % 16)] := by
  have hbyte : byte.toNat < 256 := byte.toNat_lt
  have hhalf : byte.toNat / 16 < 16 := by omega
  unfold pair
  rw [Text.hexDigits]
  split
  · next hlow =>
    rw [Nat.div_eq_of_lt hlow, Nat.mod_eq_of_lt hlow]
    rfl
  · rw [Text.hexDigits, if_pos hhalf]
    rfl

/-- A byte is read from its digits. -/
theorem readPair_pair (byte : UInt8) : readPair (pair byte) = some byte := by
  have hvalue : Text.readHex (pair byte) = some byte.toNat := by
    rw [pair, List.leftpad, Text.readHex_replicate_zero, Text.readHex_hexDigits]
  rw [pair_eq] at hvalue ⊢
  rw [readPair, hvalue, Option.map_some, UInt8.ofNat_toNat]

/-- What is read from each piece is read from all of them. -/
theorem mapM_map_of_some {α β γ : Type} {f : β → Option γ} {g : α → β} {h : α → γ} {xs : List α}
    (heach : ∀ x ∈ xs, f (g x) = some (h x)) : (xs.map g).mapM f = some (xs.map h) := by
  induction xs with
  | nil => rfl
  | cons x xs ih =>
    rw [List.map_cons, List.mapM_cons, heach x List.mem_cons_self,
      ih fun y hy => heach y (List.mem_cons_of_mem _ hy)]
    rfl

/-- The pairs of a row have two columns each and one between them. -/
theorem length_pairs (row : List UInt8) : (pairs row).length = 3 * row.length - 1 := by
  cases row with
  | nil => rfl
  | cons byte row =>
    have hrest : (row.map pair).flatMap (' ' :: ·) = row.flatMap fun byte => ' ' :: pair byte :=
      List.flatMap_map ..
    have hthree : (row.flatMap fun byte => ' ' :: pair byte).length = 3 * row.length := by
      simp [List.length_flatMap, pair_eq, List.map_const', Nat.mul_comm]
    rw [pairs, List.map_cons, Text.intercalate_cons_eq, hrest, List.length_append, hthree, pair_eq]
    simp
    omega

/-- A field is as wide for a short row as for a full one. -/
theorem length_field {row : List UInt8} (hrow : row.length ≤ rowSize) :
    ((pairs row).rightpad fieldWidth ' ').length = fieldWidth := by
  have hlength := length_pairs row
  have hrow : row.length ≤ 16 := hrow
  rw [List.length_rightpad, fieldWidth]
  omega

/-- A row is read back from its field, and nothing from the blanks that fill the field. -/
theorem readField_pairs {row : List UInt8} (hne : row ≠ []) :
    readField ((pairs row).rightpad fieldWidth ' ') = some row := by
  have hpairs : row.map pair ≠ [] := mt List.map_eq_nil_iff.mp hne
  have hpieces : ∀ piece ∈ row.map pair ++ List.replicate (fieldWidth - (pairs row).length) [],
      ' ' ∉ piece := by
    intro piece hpiece
    rcases List.mem_append.mp hpiece with hpiece | hempty
    · obtain ⟨byte, _, rfl⟩ := List.mem_map.mp hpiece
      exact Text.not_mem_leftpad (by decide)
    · rw [List.eq_of_mem_replicate hempty]
      exact List.not_mem_nil
  have hkept : (row.map pair ++ List.replicate (fieldWidth - (pairs row).length) []).filter
      (fun piece => !piece.isEmpty) = row.map pair := by
    rw [List.filter_append, List.filter_eq_self.mpr, List.filter_eq_nil_iff.mpr, List.append_nil]
    · rintro piece hempty
      rw [List.eq_of_mem_replicate hempty]
      decide
    · rintro piece hpiece
      obtain ⟨byte, _, rfl⟩ := List.mem_map.mp hpiece
      rw [pair_eq]
      rfl
  have hfield : (pairs row).rightpad fieldWidth ' ' =
      [' '].intercalate (row.map pair ++ List.replicate (fieldWidth - (pairs row).length) []) :=
    (Text.intercalate_append_replicate ' ' hpairs _).symm
  rw [readField, hfield, List.splitOn_intercalate ' ' hpieces (by simp [hpairs]), hkept]
  rw [mapM_map_of_some (h := id) fun byte _ => readPair_pair byte, List.map_id]

/-! ## Lines -/

/-- The characters of a line but its end. -/
def columns (address : Nat) (row : List UInt8) : List Char :=
  (Text.hexDigits address).leftpad 4 '0' ++ [':', ' '] ++ (pairs row).rightpad fieldWidth ' ' ++
    [' ', ' '] ++ row.map glyph

/-- A line is its columns and the line end. -/
theorem toList_line (address : Nat) (row : List UInt8) :
    (line address row).toList = columns address row ++ ['\n'] := by
  simp [line, columns, Text.hex]

/-- No byte is shown as a line end. -/
theorem glyph_ne_newline (byte : UInt8) : glyph byte ≠ '\n' := by
  have hall : ∀ k : Fin 256, glyph (UInt8.ofNat k) ≠ '\n' := by decide +kernel
  simpa using hall ⟨byte.toNat, byte.toNat_lt⟩

/-- There is no line end within a line. -/
theorem newline_not_mem_columns (address : Nat) (row : List UInt8) :
    '\n' ∉ columns address row := by
  have haddress : '\n' ∉ (Text.hexDigits address).leftpad 4 '0' :=
    Text.not_mem_leftpad (by decide)
  have hpairs : '\n' ∉ pairs row := by
    intro hmem
    rcases Text.eq_or_mem_of_mem_intercalate hmem with hblank | ⟨piece, hpiece, hmem⟩
    · cases hblank
    · obtain ⟨byte, _, rfl⟩ := List.mem_map.mp hpiece
      exact Text.not_mem_leftpad (by decide) hmem
  have hglyphs : '\n' ∉ row.map glyph := by
    intro hmem
    obtain ⟨byte, _, hbyte⟩ := List.mem_map.mp hmem
    exact glyph_ne_newline byte hbyte
  rw [columns, List.rightpad]
  simp only [List.mem_append, haddress, hpairs, hglyphs, false_or, or_false]
  simp

/-- A line gives its bytes back. -/
theorem readLine_columns (address : Nat) {row : List UInt8} (hne : row ≠ [])
    (hrow : row.length ≤ rowSize) : readLine (columns address row) = some row := by
  have hcolon : ':' ∉ (Text.hexDigits address).leftpad 4 '0' := Text.not_mem_leftpad (by decide)
  have hsplit : columns address row = (Text.hexDigits address).leftpad 4 '0' ++
      ':' :: ' ' :: ((pairs row).rightpad fieldWidth ' ' ++ (' ' :: ' ' :: row.map glyph)) := by
    simp [columns]
  obtain ⟨_, hbehind⟩ := Text.before_append hcolon
    (' ' :: ((pairs row).rightpad fieldWidth ' ' ++ (' ' :: ' ' :: row.map glyph)))
  rw [readLine, hsplit, hbehind, List.drop_succ_cons, List.drop_zero,
    List.take_left' (length_field hrow)]
  exact readField_pairs hne

/-! ## Rows -/

/-- The bytes of a row. -/
def rowOf (bytes : List UInt8) (r : Nat) : List UInt8 := (bytes.drop (16 * r)).take 16

/-- A dump has a line for each row, behind the address of the row. -/
theorem lines_eq (address : Nat) (bytes : List UInt8) :
    lines address bytes = (List.range ((bytes.length + 15) / 16)).map fun r =>
      line ((address + 16 * r) % UInt64.size) (rowOf bytes r) := by
  fun_induction lines address bytes with
  | case1 address bytes hempty =>
    rw [List.isEmpty_iff.mp hempty]
    rfl
  | case2 address bytes hempty ih =>
    have hpos : 0 < bytes.length := List.length_pos_iff.mpr (mt List.isEmpty_iff.mpr hempty)
    have hcount : (bytes.length + 15) / 16 = ((bytes.drop rowSize).length + 15) / 16 + 1 := by
      rw [List.length_drop, rowSize]
      omega
    have hnext (r : Nat) : rowOf (bytes.drop rowSize) r = rowOf bytes (r + 1) := by
      rw [rowOf, rowOf, List.drop_drop, rowSize, Nat.mul_succ, Nat.add_comm]
    have haddress (r : Nat) : address + rowSize + 16 * r = address + 16 * (r + 1) := by
      rw [rowSize]
      omega
    rw [ih, hcount, List.range_succ_eq_map, List.map_cons, List.map_map]
    simp only [Function.comp_def, hnext, haddress]
    rfl

/-- The rows one after the other are the bytes, as far as they go. -/
theorem flatten_rows (bytes : List UInt8) (count : Nat) :
    ((List.range count).map (rowOf bytes)).flatten = bytes.take (16 * count) := by
  induction count with
  | zero => rfl
  | succ count ih =>
    rw [List.range_succ, List.map_append, List.flatten_append, ih, Nat.mul_succ, List.take_add]
    simp [rowOf]

/-- A line shows bytes behind their address, which is written in upper-case hexadecimal with at
least four digits: first in a field of forty-seven columns that reads back to them, then as text,
with a full stop for each byte that does not print. -/
def Shows (line : List Char) (address : Nat) (row : List UInt8) : Prop :=
  ∃ field text : List Char,
    line = ((Nat.toDigits 16 address).map Char.toUpper).leftpad 4 '0' ++ [':', ' '] ++ field ++
      [' ', ' '] ++ text ∧
    field.length = 47 ∧ readField field = some row ∧ text.length = row.length ∧
    ∀ (i : Nat) (byte : UInt8), row[i]? = some byte →
      text[i]? = some (if 0x20 ≤ byte ∧ byte ≤ 0x7E then Char.ofNat byte.toNat else '.')

/-- The columns of a row show it. -/
theorem shows_columns (address : Nat) {row : List UInt8} (hne : row ≠ [])
    (hrow : row.length ≤ rowSize) : Shows (columns address row) address row := by
  refine ⟨(pairs row).rightpad fieldWidth ' ', row.map glyph, ?_, length_field hrow,
    readField_pairs hne, List.length_map .., fun i byte hbyte => ?_⟩
  · rw [columns, Text.hexDigits_eq_toDigits]
  · rw [List.getElem?_map, hbyte]
    rfl

/-! ## Dumps -/

/-- The columns of all rows of a dump. -/
def allColumns (bytes : Bytes) (base : Nat) : List (List Char) :=
  (List.range ((bytes.size + 15) / 16)).map fun r =>
    columns ((base + 16 * r) % UInt64.size) (rowOf bytes.toList r)

/-- A dump is the columns of its rows with a line end behind each. -/
theorem toList_dump (bytes : Bytes) (base : Nat) :
    (dump bytes base).toList = (allColumns bytes base).flatMap (· ++ ['\n']) := by
  rw [dump, String.toList_join, lines_eq, allColumns, List.flatMap_map, List.flatMap_map,
    Array.length_toList]
  simp only [toList_line]

/-- The lines of a dump are the columns of its rows. -/
theorem textLines_dump (bytes : Bytes) (base : Nat) :
    textLines (dump bytes base) = allColumns bytes base := by
  rw [textLines, toList_dump, Text.splitOn_ended, List.dropLast_concat]
  intro line hline
  obtain ⟨r, _, rfl⟩ := List.mem_map.mp hline
  exact newline_not_mem_columns _ _

/-- A row of a dump has some bytes and at most sixteen. -/
theorem rowOf_bounds {bytes : List UInt8} {r : Nat} (hr : r < (bytes.length + 15) / 16) :
    rowOf bytes r ≠ [] ∧ (rowOf bytes r).length ≤ rowSize := by
  have hlength : (rowOf bytes r).length = min 16 (bytes.length - 16 * r) := by simp [rowOf]
  constructor
  · rw [← List.length_pos_iff]
    omega
  · rw [rowSize]
    omega

/-- All bytes are read back from a dump. -/
theorem read_dump (bytes : Bytes) (base : Nat) : read (dump bytes base) = some bytes.toList := by
  have hrows : (textLines (dump bytes base)).mapM readLine =
      some ((List.range ((bytes.size + 15) / 16)).map (rowOf bytes.toList)) := by
    rw [textLines_dump, allColumns]
    refine mapM_map_of_some fun r hr => ?_
    rw [List.mem_range, ← Array.length_toList] at hr
    obtain ⟨hne, hrow⟩ := rowOf_bounds hr
    exact readLine_columns _ hne hrow
  have hall : bytes.toList.take (16 * ((bytes.size + 15) / 16)) = bytes.toList :=
    List.take_of_length_le (by rw [Array.length_toList]; omega)
  rw [read, hrows, Option.map_some, flatten_rows, hall]

/-- A row of a dump is the part of the bytes from its address on. -/
theorem rowOf_toList (bytes : Bytes) (r : Nat) :
    rowOf bytes.toList r = (bytes.extract (16 * r) (min (16 * r + 16) bytes.size)).toList := by
  rw [rowOf, Array.toList_extract, List.extract_eq_take_drop, List.take_eq_take_iff,
    List.length_drop, Array.length_toList]
  omega

/-- A dump consists of its lines, one for every sixteen bytes begun. Each line shows its bytes
behind the address of the first of them, and all bytes are read back from the fields of the lines,
so no two strings of bytes have the same dump. -/
theorem dump_loses_nothing (bytes : Bytes) (base : Nat) (hbase : base + bytes.size < UInt64.size) :
    let text := dump bytes base
    text.toList = (textLines text).flatMap (· ++ ['\n']) ∧
      (textLines text).length = (bytes.size + 15) / 16 ∧
      (∀ (r : Nat) (line : List Char), (textLines text)[r]? = some line →
        Shows line (base + 16 * r)
          (bytes.extract (16 * r) (min (16 * r + 16) bytes.size)).toList) ∧
      read text = some bytes.toList ∧
      ∀ (other : Bytes) (base' : Nat), other ≠ bytes → dump other base' ≠ text := by
  intro text
  have hlines : textLines text = allColumns bytes base := textLines_dump bytes base
  refine ⟨?_, ?_, fun r line hline => ?_, read_dump bytes base, fun other base' hne hsame => ?_⟩
  · rw [hlines]
    exact toList_dump bytes base
  · rw [hlines, allColumns, List.length_map, List.length_range]
  · rw [hlines, allColumns, List.getElem?_map, Option.map_eq_some_iff] at hline
    obtain ⟨r', hr', rfl⟩ := hline
    obtain ⟨hlt, rfl⟩ := List.getElem?_eq_some_iff.mp hr'
    rw [List.length_range] at hlt
    -- The row begins before the end of the bytes, so its address does not wrap.
    have haddress : base + 16 * r < UInt64.size := by omega
    rw [← Array.length_toList] at hlt
    obtain ⟨hne, hrow⟩ := rowOf_bounds hlt
    rw [List.getElem_range, Nat.mod_eq_of_lt haddress, ← rowOf_toList]
    exact shows_columns _ hne hrow
  · have hread := read_dump other base'
    rw [hsame, read_dump bytes base] at hread
    exact hne (Array.toList_inj.mp (Option.some.inj hread)).symm

/-- The text column may look like a field: the letters of a pair stand in it, and blanks. -/
theorem dump_loses_nothing_beside_hexlike_text :
    let bytes : Bytes := #[0x34, 0x31, 0x20, 0x20, 0x20, 0x34, 0x32, 0x3A, 0x0A, 0x00, 0x7E, 0x7F,
      0xFF, 0x2E, 0x43, 0x44, 0x20]
    let other : Bytes := #[0x34, 0x31]
    0xFFF8 + bytes.size < UInt64.size ∧ (textLines (dump bytes 0xFFF8)).length = 2 ∧
      (∃ line, (textLines (dump bytes 0xFFF8))[1]? = some line ∧ Shows line 0x10008 [0x20]) ∧
      read (dump bytes 0xFFF8) = some bytes.toList ∧ other ≠ bytes ∧
      dump other 0xFFF8 ≠ dump bytes 0xFFF8 := by
  intro bytes other
  have hbase : 0xFFF8 + bytes.size < UInt64.size := by decide
  obtain ⟨_, hcount, hshows, hread, hdiffers⟩ := dump_loses_nothing bytes 0xFFF8 hbase
  have htwo : (textLines (dump bytes 0xFFF8)).length = 2 := hcount.trans (by decide)
  have hother : other ≠ bytes := by decide
  have hsecond : (textLines (dump bytes 0xFFF8))[1]? =
      some (textLines (dump bytes 0xFFF8))[1] := List.getElem?_eq_getElem (by omega)
  exact ⟨hbase, htwo, ⟨_, hsecond, hshows 1 _ hsecond⟩, hread, hother, hdiffers other _ hother⟩

end HexDump

end HardSector
