/-!
# Decimals with a fixed number of places

A double is decoded into a whole number times a power of two and rounded once, on its exact
value, to the wanted number of decimal places; a half goes to the even neighbour. The rounding
is within half a unit of the last place.
-/

namespace HardSector.Decimal

/-- `num / den` rounded to the nearest whole number, a half going to the even neighbour. -/
def roundHalfEven (num den : Nat) : Nat :=
  if 2 * (num % den) < den ∨ (2 * (num % den) = den ∧ num / den % 2 = 0) then num / den
  else num / den + 1

/-- Rounding moves a quotient by at most half a unit, in either direction. -/
theorem roundHalfEven_near (num : Nat) {den : Nat} (hden : 0 < den) :
    2 * num ≤ 2 * (den * roundHalfEven num den) + den ∧
      2 * (den * roundHalfEven num den) ≤ 2 * num + den := by
  have hsplit : den * (num / den) + num % den = num := Nat.div_add_mod num den
  have hrem : num % den < den := Nat.mod_lt num hden
  unfold roundHalfEven
  split
  · omega
  · rw [Nat.mul_add]
    omega

/-- A non-negative number `mantissa * 2 ^ exponent`. -/
structure Binary where
  mantissa : Nat
  exponent : Int
deriving DecidableEq, Repr

/-- The exact value of a finite, non-negative double: eleven exponent bits above fifty-two
fraction bits, with a leading one unless the exponent field is zero. -/
def Binary.ofFloat (x : Float) : Binary :=
  let bits := x.toBits.toNat
  let fraction := bits % Nat.pow 2 52
  let field : Nat := bits / Nat.pow 2 52 % Nat.pow 2 11
  if field = 0 then ⟨fraction, -1074⟩ else ⟨Nat.pow 2 52 + fraction, (field : Int) - 1075⟩

/-- The value in units of the last of `places` decimal places, rounded. -/
def Binary.units (b : Binary) (places : Nat) : Nat :=
  match b.exponent with
  | .ofNat e => b.mantissa * Nat.pow 2 e * Nat.pow 10 places
  | .negSucc e => roundHalfEven (b.mantissa * Nat.pow 10 places) (Nat.pow 2 (e + 1))

/-- A count of units of the last of `places` places, written with a decimal point. -/
def pointed (places units : Nat) : String :=
  let whole := toString (units / Nat.pow 10 places)
  if places = 0 then whole
  else
    let rest := (Nat.toDigits 10 (units % Nat.pow 10 places)).leftpad places '0'
    whole ++ "." ++ String.ofList rest

/-- A finite, non-negative double with `places` decimal places. -/
def fixed (places : Nat) (x : Float) : String :=
  pointed places ((Binary.ofFloat x).units places)

end HardSector.Decimal
