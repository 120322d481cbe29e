/-!
# Upper-case hexadecimal

Numbers are written in upper-case hexadecimal, padded on the left with zeros to a least width.
The digits of a number read back to the number, whatever the padding.
-/

namespace HardSector.Text

/-- The upper-case hexadecimal digit of a value below sixteen. -/
def hexDigit (d : Nat) : Char :=
  (Nat.digitChar d).toUpper

/-- The hexadecimal digits of a number, most significant first, at least one. -/
def hexDigits (n : Nat) : List Char :=
  if n < 16 then [hexDigit n] else hexDigits (n / 16) ++ [hexDigit (n % 16)]

/-- A number in hexadecimal, padded with zeros to at least `width` digits. -/
def hex (width n : Nat) : String :=
  String.ofList ((hexDigits n).leftpad width '0')

/-- The value of an upper-case hexadecimal digit. -/
def hexValue? (c : Char) : Option Nat :=
  if '0' ≤ c ∧ c ≤ '9' then some (c.toNat - '0'.toNat)
  else if 'A' ≤ c ∧ c ≤ 'F' then some (c.toNat - 'A'.toNat + 10)
  else none

/-- The number that a list of hexadecimal digits denotes, read after the digits of `high`. -/
def readHexFrom : Nat → List Char → Option Nat
  | high, [] => some high
  | high, c :: cs => (hexValue? c).bind fun d => readHexFrom (16 * high + d) cs

/-- The number that a list of hexadecimal digits denotes. -/
def readHex (cs : List Char) : Option Nat :=
  readHexFrom 0 cs

/-- Every digit reads back to its value. -/
theorem hexValue?_hexDigit {d : Nat} (hd : d < 16) : hexValue? (hexDigit d) = some d := by
  have hall : ∀ k : Fin 16, hexValue? (hexDigit k) = some k.val := by decide
  exact hall ⟨d, hd⟩

/-- Reading digits in two parts passes the value of the first part on to the second. -/
theorem readHexFrom_append (high : Nat) (left right : List Char) :
    readHexFrom high (left ++ right) =
      (readHexFrom high left).bind fun n => readHexFrom n right := by
  induction left generalizing high with
  | nil => simp [readHexFrom]
  | cons c left ih =>
      cases hc : hexValue? c with
      | none => simp [readHexFrom, hc]
      | some d => simp [readHexFrom, hc, ih]

/-- The digits of a number read back to it. -/
theorem readHex_hexDigits (n : Nat) : readHex (hexDigits n) = some n := by
  unfold readHex
  induction n using hexDigits.induct with
  | case1 n hn =>
      rw [hexDigits, if_pos hn]
      simp [readHexFrom, hexValue?_hexDigit hn]
  | case2 n hn ih =>
      rw [hexDigits, if_neg hn, readHexFrom_append, ih]
      have hmod : n % 16 < 16 := Nat.mod_lt _ (by decide)
      simp only [Option.bind_some, readHexFrom, hexValue?_hexDigit hmod]
      congr 1
      omega

/-- Leading zeros do not change the value. -/
theorem readHex_replicate_zero (k : Nat) (cs : List Char) :
    readHex (List.replicate k '0' ++ cs) = readHex cs := by
  unfold readHex
  induction k with
  | zero => simp
  | succ k ih =>
      have hzero : hexValue? '0' = some 0 := by decide
      simpa [List.replicate_succ, readHexFrom, hzero] using ih

end HardSector.Text
