import TemplateLayout.Text.Basic

/-! # Lines
How a text falls into lines. Ten characters end a line, and a carriage return with the line feed
after it ends only one. A text that ends with a line break has no empty last line.
-/

namespace TemplateLayout.Text

/-- The characters that end a line. -/
def isLineBreak (c : CodePoint) : Bool :=
  let n := c.toNat
  (0x0A ≤ n && n ≤ 0x0D) || (0x1C ≤ n && n ≤ 0x1E) || n == 0x85 || n == 0x2028 || n == 0x2029

/-- Puts a character at the start of the first line, and begins a line where there is none. -/
def consChar (c : CodePoint) : List Text → List Text
  | [] => [[c]]
  | l :: ls => (c :: l) :: ls

/-- The **lines** of a text, without their line breaks. -/
def splitLines : Text → List Text
  | [] => []
  | .char '\r' :: .char '\n' :: r => [] :: splitLines r
  | c :: r => if isLineBreak c then [] :: splitLines r else consChar c (splitLines r)

@[simp] theorem splitLines_nil : splitLines [] = [] := rfl

end TemplateLayout.Text
