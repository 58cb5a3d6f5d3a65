import TemplateLayout.Terminal
import TemplateLayout.Text.Lines

/-! # Source snippets
The lines of a text around an error, with a caret under the place where one is known.

* `Snippet` — numbered lines, the line in error and a column;
* `Snippet.ofSource` — the lines around a place;
* `Snippet.render` — a snippet as text.
-/

namespace TemplateLayout

/-- A **snippet** of a source text. -/
structure Snippet where
  /-- The lines with their numbers, counted from one. -/
  lines : List (Int × Text)
  /-- The number of the line in error. -/
  errorLine : Int
  /-- The column of the caret, counted from zero. -/
  column : Option Int
  deriving DecidableEq, Repr

namespace Snippet

/-- The lines numbered `errorLine - context` to `errorLine + context`, as far as the source has
them. -/
def window (source : Text) (errorLine context : Int) : List (Int × Text) :=
  let numbered := (Text.splitLines source).zipIdx.map fun (content, i) => ((i : Int) + 1, content)
  (numbered.take (errorLine + context).toNat).drop (errorLine - 1 - context).toNat

/-- The snippet of a source around a line, with `context` lines before and after it. -/
def ofSource (source : Text) (errorLine context : Int) (column : Option Int) : Snippet :=
  ⟨window source errorLine context, errorLine, column⟩

/-- How many lines stand before and after the line in error unless another number is asked for. -/
def defaultContext : Int := 2

/-- A snippet as **text**: its lines between two rules, and the caret below them. -/
def render (on : Bool) (s : Snippet) : Text :=
  let rule := Terminal.paintAs on .background "   |".toText
  let body := s.lines.map fun (number, content) =>
    Terminal.sourceLine on number content (number == s.errorLine)
  let caret :=
    match s.column with
    | none => []
    | some c =>
      [rule ++ .char ' ' :: Terminal.paintAs on .errorLine (Text.spaces c.toNat ++ [.char '^'])]
  Text.joinLines (rule :: body ++ caret ++ [rule])

end Snippet

end TemplateLayout
