/-! # Code points
The units a text is made of. Data written as escapes may name half of a surrogate pair without the
other half, and such a half is kept as it stands, so a code point is more than a character.

* `CodePoint` — a character or a surrogate;
* `CodePoint.toNat`, `CodePoint.ofNat` — the numbers of the code space;
* `CodePoint.ofNat_toNat` — a code point is found again from its number.
-/

namespace TemplateLayout

/-- A **code point** is a character, or one of the surrogates, which are no characters. -/
inductive CodePoint where
  /-- The code point of a character. -/
  | char (c : Char)
  /-- The surrogate at distance `n` from the first one, U+D800. -/
  | surrogate (n : Fin 0x800)
  deriving DecidableEq, Repr

namespace CodePoint

/-- The number of a code point. -/
def toNat : CodePoint → Nat
  | .char c => c.toNat
  | .surrogate n => 0xD800 + n

/-- The code point with a number. Numbers beyond the code space give the null character. -/
def ofNat (n : Nat) : CodePoint :=
  if h : 0xD800 ≤ n ∧ n < 0xE000 then .surrogate ⟨n - 0xD800, by omega⟩ else .char (Char.ofNat n)

/-- The character a code point is, if it is one. -/
def char? : CodePoint → Option Char
  | .char c => some c
  | .surrogate _ => none

/-- Whether a code point is an ASCII digit. -/
def isDigit : CodePoint → Bool
  | .char c => c.isDigit
  | .surrogate _ => false

/-- The lower case of an ASCII capital; any other code point is its own. -/
def toLower : CodePoint → CodePoint
  | .char c => .char c.toLower
  | .surrogate n => .surrogate n

/-! ## Numbers -/

@[simp] theorem toNat_char (c : Char) : (CodePoint.char c).toNat = c.toNat := rfl

/-- A code point is found again from its number. -/
@[simp] theorem ofNat_toNat (p : CodePoint) : ofNat p.toNat = p := by
  cases p with
  | char c =>
    have hc : c.toNat < 0xD800 ∨ 0xDFFF < c.toNat ∧ c.toNat < 0x110000 := c.valid
    have h : ¬ (0xD800 ≤ c.toNat ∧ c.toNat < 0xE000) := by omega
    simp [ofNat, toNat, h]
  | surrogate n =>
    have h : 0xD800 ≤ 0xD800 + n.val ∧ 0xD800 + n.val < 0xE000 := by omega
    simp [ofNat, toNat, h]

end CodePoint

end TemplateLayout
