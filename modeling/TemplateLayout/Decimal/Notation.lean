import TemplateLayout.Decimal.Shortest
import TemplateLayout.Text.Numeral

/-! # Decimal notation
How a decimal number is written in a message: the fewest digits that read back, positional for
magnitudes from `10 ^ -4` to below `10 ^ 16`, and with an exponent outside that range. A whole
number keeps `.0`, and an exponent has a sign and two places or more.
-/

namespace TemplateLayout.Decimal

/-- A number of the host program that is no whole number: a decimal, an infinity or no number. -/
inductive Real where
  /-- A decimal as written. -/
  | finite (d : Decimal)
  /-- An infinity. -/
  | infinite (negative : Bool)
  /-- Not a number. -/
  | nan
  deriving DecidableEq, Repr

/-- The choices of a decimal notation. -/
structure Style where
  /-- The least magnitude that is written positionally. -/
  least : Int
  /-- The first magnitude that is written with an exponent again. -/
  bound : Int
  /-- The least number of places of an exponent. -/
  exponentPlaces : Nat

/-- The notation of messages. -/
def style : Style := ⟨-4, 16, 2⟩

/-- A row of `n` zeros. -/
def zeros (n : Nat) : Text := List.replicate n (.char '0')

/-- Digits with a point among them, before them or after them; `lead` is the magnitude of the
first. -/
def positional (digits : Text) (lead : Int) : Text :=
  match lead with
  | .ofNat n =>
    let whole := digits.take (n + 1) ++ zeros (n + 1 - digits.length)
    let part := digits.drop (n + 1)
    whole ++ .char '.' :: if part.isEmpty then [.char '0'] else part
  | .negSucc n => "0.".toText ++ zeros n ++ digits

/-- Digits with a point after the first, and an exponent. -/
def scientific (places : Nat) (digits : Text) (lead : Int) : Text :=
  let rest := digits.drop 1
  let sign : CodePoint := if lead < 0 then .char '-' else .char '+'
  let power := Text.ofNat lead.natAbs
  digits.take 1 ++ (if rest.isEmpty then [] else .char '.' :: rest) ++
    [.char 'e', sign] ++ zeros (places - power.length) ++ power

/-- A positive number of binary64 in a style. -/
def ofBinary (s : Style) (b : Binary64) : Text :=
  let short := Shortest.ofBinary b
  let all := Text.ofNat short.digits
  let lead := short.exponent + all.length - 1
  let digits := (all.reverse.dropWhile (· == .char '0')).reverse
  if s.least ≤ lead && lead < s.bound then positional digits lead
  else scientific s.exponentPlaces digits lead

/-- **A real number as text**, rounded to binary64 first. Both zeros keep their sign. -/
def Real.text : Real → Text
  | .nan => "nan".toText
  | .infinite negative => (if negative then [.char '-'] else []) ++ "inf".toText
  | .finite d =>
    (if d.negative then [.char '-'] else []) ++
      match Binary64.nearest d.digits d.exponent with
      | none => "inf".toText
      | some b => if b.mantissa = 0 then "0.0".toText else ofBinary style b

/-! The two ends of positional notation, and the least number that is not zero. -/

example : Real.text (.finite ⟨false, 1, 16⟩) = "1e+16".toText := by decide +kernel

example : Real.text (.finite ⟨false, 9999999999999998, 0⟩) = "9999999999999998.0".toText := by
  decide +kernel

example : Real.text (.finite ⟨true, 1, -4⟩) = "-0.0001".toText := by decide +kernel

example : Real.text (.finite ⟨false, 15, -6⟩) = "1.5e-05".toText := by decide +kernel

example : Real.text (.finite ⟨false, 3, -324⟩) = "5e-324".toText := by decide +kernel

end TemplateLayout.Decimal
