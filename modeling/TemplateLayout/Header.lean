import TemplateLayout.Directive
import TemplateLayout.Event

/-! # Block headers
The line that opens a block: a keyword, perhaps a condition, and a brace. Reading a header collapses
its blanks; writing it puts one space between its parts, so `@if(a){` becomes `@if (a) {`.

* `Header` — keyword and condition;
* `Header.read` — the header that a text begins with;
* `Header.write` — a header as a line;
* `Header.line` — a text as a header line, or as it stands where it holds no header.
-/

namespace TemplateLayout

/-- A **header** has a keyword, its `@` included, and a condition that may be empty. -/
structure Header where
  /-- `@` and the keyword, with the qualifier `if` where one follows. -/
  keyword : Text
  /-- What stands between the keyword and the brace. -/
  condition : Text
  deriving DecidableEq, Repr

namespace Header

/-- The pieces before the first `{` outside every span. A brace that begins an unclosed `{{` is no
block brace, and nothing after it is looked at. -/
def beforeBrace : List Piece → Option (List Piece)
  | [] => none
  | .char '{' :: .char '{' :: _ => none
  | .char '{' :: _ => some []
  | p :: ps => (beforeBrace ps).map (p :: ·)

/-- The header whose text before the brace, after its `@`, is `body`: the keyword is the leading
word and an `if` that follows it. -/
def ofBody (body : Text) : Header :=
  let name := body.takeWhile Text.isWordChar
  let gap := (body.dropWhile Text.isWordChar).takeWhile Text.isBlank
  let rest := (body.dropWhile Text.isWordChar).dropWhile Text.isBlank
  if !gap.isEmpty && "if".toText.isPrefixOf rest then
    ⟨.char '@' :: name ++ gap ++ "if".toText, Text.trimLeft (rest.drop 2)⟩
  else ⟨.char '@' :: name, rest⟩

/-- The header that collapsed pieces begin with: `@`, a word character, and later a block brace. -/
def ofPieces : List Piece → Option Header
  | .char '@' :: .point c :: ps =>
    if Text.isWordChar c then
      (beforeBrace (.point c :: ps)).map fun body => ofBody (Text.trimRight (Piece.sourceAll body))
    else none
  | _ => none

/-- The **header of a text**, its blanks collapsed first. What follows the brace is not part of
it. -/
def read (s : Text) : Option Header := ofPieces (Piece.lex (Text.collapse s))

/-- A header as a **line**: its parts with one space between each two. -/
def write (h : Header) : Text :=
  if h.condition.isEmpty then h.keyword ++ [.char ' ', .char '{']
  else h.keyword ++ .char ' ' :: h.condition ++ [.char ' ', .char '{']

/-- A text as a header line at an indent. Where the text holds no header it is written trimmed and
otherwise untouched, and that is noted. -/
def line (s indent : Text) : Logged Text :=
  match read s with
  | some h => pure (indent ++ h.write)
  | none => do
    Logged.note (.verbatimDirective (Text.trim s))
    pure (indent ++ Text.trim s)

end Header

end TemplateLayout
