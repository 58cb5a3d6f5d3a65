/-! # Numbers in binary64
A decimal number is held to the precision of a binary64 word: 53 significant bits, and no step finer
than `2 ^ -1074`. This module rounds a positive decimal to the nearest such number, by exact
arithmetic on natural numbers.

* `Decimal` — a number as it was written;
* `Binary64` — a positive number `mantissa · 2 ^ exponent`;
* `Binary64.nearest` — the nearest one, an even mantissa in a tie.
-/

namespace TemplateLayout

/-- A **decimal number** as written: `± digits · 10 ^ exponent`. -/
structure Decimal where
  /-- Whether a minus sign stands before it. -/
  negative : Bool
  /-- All its digits, read as one natural number. -/
  digits : Nat
  /-- The power of ten that the digits are scaled by. -/
  exponent : Int
  deriving DecidableEq, Repr

/-- A positive number `mantissa · 2 ^ exponent` of binary64, or zero. -/
structure Binary64 where
  /-- The significant bits, fewer than 54. -/
  mantissa : Nat
  /-- The power of two that they are scaled by. -/
  exponent : Int
  deriving DecidableEq, Repr

namespace Binary64

/-- `num / den · base ^ exponent` as a quotient of two natural numbers. -/
def scale (num den base : Nat) (exponent : Int) : Nat × Nat :=
  match exponent with
  | .ofNat e => (num * Nat.pow base e, den)
  | .negSucc e => (num, den * Nat.pow base (e + 1))

/-- A quotient rounded to the nearest whole number, to the even one of two that are as near. -/
def roundDiv (num den : Nat) : Nat :=
  let q := num / den
  let r := 2 * (num % den)
  if r < den then q else if den < r then q + 1 else q + q % 2

/-- The finest step of the format. -/
def leastExponent : Int := -1074

/-- The least mantissa of a number that has all 53 bits. -/
def leastMantissa : Nat := Nat.pow 2 52

/-- The exponent at which a positive quotient has at most 53 bits before the point, and no more room
than it needs unless the format ends there. -/
def exponentFor (num den : Nat) : Int :=
  let free := (num.log2 : Int) - den.log2 - 53
  let e := if free < leastExponent then leastExponent else free
  let (n, d) := scale num den 2 (-e)
  if n / d < 2 * leastMantissa then e else e + 1

/-- The number of binary64 nearest to a positive quotient; `none` where it is beyond the largest. -/
def ofQuotient (num den : Nat) : Option Binary64 :=
  let e := exponentFor num den
  let (n, d) := scale num den 2 (-e)
  let m := roundDiv n d
  let b : Binary64 := if m = 2 * leastMantissa then ⟨leastMantissa, e + 1⟩ else ⟨m, e⟩
  if 971 < b.exponent then none else some b

/-- **The nearest number** of binary64 to `digits · 10 ^ exponent`; `none` where it is beyond the
largest. Numbers that are out of reach by their magnitude alone are not computed. -/
def nearest (digits : Nat) (exponent : Int) : Option Binary64 :=
  let magnitude := ((Nat.toDigits 10 digits).length : Int) + exponent
  if digits = 0 || magnitude < -325 then some ⟨0, leastExponent⟩
  else if 310 < magnitude then none
  else
    let (num, den) := scale digits 1 10 exponent
    ofQuotient num den

end Binary64

end TemplateLayout
