import TemplateLayout.Decimal.Binary64

/-! # Shortest decimals
Of all decimals that read back as a given binary64 number, the one with the fewest digits, and of
those the nearest to the number.

A decimal reads back as `m · 2 ^ e` if it lies between the two points half-way to the neighbours of
that number, and on one of these points only if `m` is even. Everything is measured in quarters of
`2 ^ e`, in which these points are whole.
-/

namespace TemplateLayout.Shortest

/-- A decimal `digits · 10 ^ exponent`. -/
structure Digits where
  /-- The significant digits as one number. -/
  digits : Nat
  /-- The power of ten of the last digit. -/
  exponent : Int
  deriving DecidableEq, Repr

/-- The lower half-way point, in quarters: nearer where the number is the least of its exponent. -/
def lower (b : Binary64) : Nat :=
  if b.mantissa = Binary64.leastMantissa && Binary64.leastExponent < b.exponent then
    4 * b.mantissa - 1
  else 4 * b.mantissa - 2

/-- The upper half-way point, in quarters. -/
def upper (b : Binary64) : Nat := 4 * b.mantissa + 2

/-- The exponent of the leading decimal digit of a positive quotient. -/
def magnitude (num den : Nat) : Int :=
  if den ≤ num then ((Nat.toDigits 10 (num / den)).length : Int) - 1
  else -((Nat.toDigits 10 ((den - 1) / num)).length : Int)

/-- Whether `c · unit` reads back, where a quarter is `num / den` of the unit of measure: the test
compares `c · den` with the half-way points. -/
def readsBack (b : Binary64) (c num den : Nat) : Bool :=
  let point := c * den
  let low := lower b * num
  let high := upper b * num
  if b.mantissa % 2 = 0 then low ≤ point && point ≤ high else low < point && point < high

/-- The decimal of `places` digits that reads back and is nearest, if there is one. Only the two
neighbours of the number on that grid need a test; of two as near, the even one is taken. -/
def atPlaces (b : Binary64) (lead : Int) (places : Nat) : Option Digits :=
  let k := lead - places + 1
  let (n, d) := Binary64.scale 1 4 2 b.exponent
  let (num, den) := Binary64.scale n d 10 (-k)
  let value := 4 * b.mantissa * num
  let below := value / den
  let above := below + 1
  let fromBelow := value - below * den
  let toAbove := above * den - value
  let belowFirst := fromBelow < toAbove || (fromBelow = toAbove && below % 2 = 0)
  match readsBack b below num den, readsBack b above num den with
  | true, true => some ⟨if belowFirst then below else above, k⟩
  | true, false => some ⟨below, k⟩
  | false, true => some ⟨above, k⟩
  | false, false => none

/-- **The shortest decimal** of a positive number: the first number of places at which some decimal
reads back. Seventeen are always enough. -/
def ofBinary (b : Binary64) : Digits :=
  let (n, d) := Binary64.scale b.mantissa 1 2 b.exponent
  let lead := magnitude n d
  ((List.range' 1 17).findSome? (atPlaces b lead)).getD ⟨b.mantissa, 0⟩

end TemplateLayout.Shortest
