import TemplateLayout.Text.Basic

/-! # Numerals
Whole numbers written out: decimal, with a sign where one is needed, and hexadecimal with a fixed
number of places. A whole number is determined by its decimal form.
-/

namespace TemplateLayout.Text

/-- The decimal digits of a natural number. -/
def ofNat (n : Nat) : Text := ofChars (Nat.toDigits 10 n)

/-- A whole number in decimal; a negative one has a minus sign. The conversion has no limit on
digits: a host program may refuse to write a number of some thousand digits, which is left out. -/
def ofInt : Int → Text
  | .ofNat n => ofNat n
  | .negSucc n => .char '-' :: ofNat (n + 1)

/-- A numeral is made of digits. -/
theorem isDigit_of_mem_ofNat {c : CodePoint} {n : Nat} (h : c ∈ ofNat n) : c.isDigit = true := by
  obtain ⟨d, hd, rfl⟩ := List.mem_map.1 h
  exact Nat.isDigit_of_mem_toDigits (by decide) (by decide) hd

/-- A number is read back from its numeral. -/
theorem ofNat_injective {m n : Nat} (h : ofNat m = ofNat n) : m = n := by
  have hdigits : Nat.toDigits 10 m = Nat.toDigits 10 n := by
    rw [← chars_ofChars (Nat.toDigits 10 m), ← chars_ofChars (Nat.toDigits 10 n)]
    exact congrArg chars h
  have hread := congrArg (Nat.ofDigitChars 10 · 0) hdigits
  rwa [Nat.ofDigitChars_ten_toDigits, Nat.ofDigitChars_ten_toDigits] at hread

/-- A whole number is a minus sign and digits, or digits only. -/
theorem eq_minus_or_isDigit_of_mem_ofInt {c : CodePoint} {i : Int} (h : c ∈ ofInt i) :
    c = .char '-' ∨ c.isDigit = true := by
  cases i with
  | ofNat n => exact .inr (isDigit_of_mem_ofNat h)
  | negSucc n =>
    rcases List.mem_cons.1 h with h | h
    · exact .inl h
    · exact .inr (isDigit_of_mem_ofNat h)

/-- The minus sign begins no numeral of a natural number. -/
theorem ofNat_ne_cons_minus (n : Nat) (s : Text) : ofNat n ≠ .char '-' :: s := by
  intro h
  have hminus : CodePoint.char '-' ∈ ofNat n := by
    rw [h]
    exact List.mem_cons_self
  exact absurd (isDigit_of_mem_ofNat hminus) (by decide)

/-- **A whole number is determined by how it is written.** -/
theorem ofInt_injective {i j : Int} (h : ofInt i = ofInt j) : i = j := by
  cases i with
  | ofNat m =>
    cases j with
    | ofNat n => exact congrArg Int.ofNat (ofNat_injective h)
    | negSucc n => exact absurd h (ofNat_ne_cons_minus m _)
  | negSucc m =>
    cases j with
    | ofNat n => exact absurd h.symm (ofNat_ne_cons_minus n _)
    | negSucc n =>
      have hsucc : m + 1 = n + 1 := ofNat_injective (List.cons.inj h).2
      rw [Nat.add_right_cancel hsucc]

/-- A natural number in `width` or more lower-case hexadecimal places. -/
def hexPlaces (width n : Nat) : Text :=
  let digits := Nat.toDigits 16 n
  ofChars (List.replicate (width - digits.length) '0' ++ digits)

end TemplateLayout.Text
