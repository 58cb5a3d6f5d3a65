import TemplateLayout.Alignment.Runs
import TemplateLayout.Text.Basic

/-! # Proposed spellings
A misspelt word is answered by the candidate most like it. Likeness is the share of the characters
of both words that their alignment covers, and it has to be three fifths or more.
-/

namespace TemplateLayout.Suggestion

/-- The **likeness** of a candidate to a word as a quotient: twice the aligned characters over all
characters. -/
def likeness (candidate word : Text) : Nat × Nat :=
  (2 * Alignment.matched candidate word, candidate.length + word.length)

/-- Whether a candidate is like enough: its likeness is at least three fifths. -/
def isClose (candidate word : Text) : Bool :=
  let (part, whole) := likeness candidate word
  0 < whole && 3 * whole ≤ 5 * part

/-- The order of texts: by the numbers of their code points, from the left. -/
def isBefore (a b : Text) : Bool := a.map CodePoint.toNat < b.map CodePoint.toNat

/-- Whether `a` is a better answer than `b`: it is more like the word, or as like and later in the
order of texts. -/
def isBetter (word a b : Text) : Bool :=
  let (p, m) := likeness a word
  let (q, n) := likeness b word
  q * m < p * n || (q * m == p * n && isBefore b a)

/-- The better of a candidate and the best one so far. -/
def choose (word : Text) (best : Option Text) (candidate : Text) : Option Text :=
  match best with
  | none => some candidate
  | some b => some (if isBetter word candidate b then candidate else b)

/-- **The best candidate** for a word, if one is like enough. -/
def best (candidates : List Text) (word : Text) : Option Text :=
  (candidates.filter (isClose · word)).foldl (choose word) none

end TemplateLayout.Suggestion
