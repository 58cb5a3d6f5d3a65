/-! # Ranges of code points
A character class outside ASCII is given as a table of closed ranges of code points.
-/

namespace TemplateLayout.Text

/-- A table of closed ranges `(first, last)` of code points, in increasing order. -/
abbrev Ranges : Type := List (Nat × Nat)

/-- Whether a code point lies in one of the ranges. -/
def Ranges.mem (table : Ranges) (n : Nat) : Bool :=
  table.any fun range => range.1 ≤ n && n ≤ range.2

end TemplateLayout.Text
