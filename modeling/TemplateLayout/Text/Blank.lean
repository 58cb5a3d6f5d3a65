import TemplateLayout.Text.Basic

/-! # Blank characters
Which characters separate words, and the three operations that rest on them: trimming, splitting
into words and collapsing.

* `Text.isBlank` — the twenty-nine white-space code points;
* `Text.trim` — a text without the blanks at its two ends;
* `Text.words` — the maximal runs without a blank, in order;
* `Text.collapse` — those words with one space between each two.
-/

namespace TemplateLayout.Text

/-! ## The class -/

/-- **Blank characters**: the code points with the white-space or separator property, and the four
information separators below the space. -/
def isBlank (c : CodePoint) : Bool :=
  let n := c.toNat
  (0x09 ≤ n && n ≤ 0x0D) || (0x1C ≤ n && n ≤ 0x20) || n == 0x85 || n == 0xA0 || n == 0x1680 ||
    (0x2000 ≤ n && n ≤ 0x200A) || n == 0x2028 || n == 0x2029 || n == 0x202F || n == 0x205F ||
    n == 0x3000

/-- Whether a text holds nothing but blanks. -/
def allBlank (s : Text) : Bool := s.all isBlank

/-! ## Trimming -/

/-- A text without its leading blanks. -/
def trimLeft (s : Text) : Text := s.dropWhile isBlank

/-- A text without its trailing blanks. -/
def trimRight (s : Text) : Text := (s.reverse.dropWhile isBlank).reverse

/-- **Trimming** drops the blanks at both ends and nothing between them. -/
def trim (s : Text) : Text := trimRight (trimLeft s)

@[simp] theorem trim_nil : trim [] = [] := rfl

/-! ## Words -/

/-- Puts a run before a list of words, unless the run is empty. -/
def consRun (run : Text) (rest : List Text) : List Text :=
  if run.isEmpty then rest else run :: rest

/-- The run that touches the start of a text, and the words after it. -/
def splitRuns : Text → Text × List Text
  | [] => ([], [])
  | c :: r =>
    let (run, rest) := splitRuns r
    if isBlank c then ([], consRun run rest) else (c :: run, rest)

/-- The **words** of a text: its maximal runs without a blank, in order. -/
def words (s : Text) : List Text :=
  let (run, rest) := splitRuns s
  consRun run rest

/-- **Collapsing** leaves one space between each two words and none at the ends. -/
def collapse (s : Text) : Text := [.char ' '].intercalate (words s)

@[simp] theorem collapse_nil : collapse [] = [] := rfl

end TemplateLayout.Text
