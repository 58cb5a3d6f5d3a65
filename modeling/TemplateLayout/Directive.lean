import TemplateLayout.Interpolation
import TemplateLayout.Text.WordChar

/-! # Directives
A directive is a text that begins with `@` and a keyword. Some directives open a block, some attach
to the closer before them, and some do both.

* `Directive.openers`, `Directive.chains`, `Directive.headers` — the three keyword lists;
* `Directive.startsWith` — whether pieces begin with `@` and a keyword of a list;
* `Directive.isOpener` — whether a text opens a block;
* `Directive.isChain` — whether a text continues the block before it.
-/

namespace TemplateLayout.Directive

/-! ## Keywords -/

/-- The keywords that open a block, as in `@if (a) {`. -/
def openers : List Text :=
  ["if".toText, "for".toText, "switch".toText, "defer".toText, "else if".toText, "else".toText,
    "case".toText, "default".toText, "error".toText]

/-- The keywords that attach to the closer before them, as in `} @else {`. -/
def chains : List Text :=
  ["else if".toText, "else".toText, "placeholder".toText, "loading".toText, "error".toText]

/-- The keywords that a block header may begin with: the openers, then the other chain keywords. -/
def headers : List Text := openers ++ chains.filter fun k => !openers.contains k

/-! ## Reading a keyword -/

/-- The pieces after the code points of `word`, if the pieces begin with them. -/
def dropWord : Text → List Piece → Option (List Piece)
  | [], ps => some ps
  | k :: word, .point c :: ps => if c == k then dropWord word ps else none
  | _ :: _, _ => none

/-- Whether a word that ends before these pieces is complete: no word character follows it. -/
def atBoundary : List Piece → Bool
  | .point c :: _ => !Text.isWordChar c
  | _ => true

/-- Whether pieces begin with a whole word of the list. -/
def startsWithWord (words : List Text) (ps : List Piece) : Bool :=
  words.any fun word =>
    match dropWord word ps with
    | some rest => atBoundary rest
    | none => false

/-- Whether pieces begin with `@` and a whole keyword of the list. -/
def startsWith (keywords : List Text) : List Piece → Bool
  | .char '@' :: ps => startsWithWord keywords ps
  | _ => false

/-! ## Classes of text -/

/-- **Openers**: after collapsing, a text that begins with an opening keyword and has a `{` outside
every span. -/
def isOpener (s : Text) : Bool :=
  let ps := Piece.lex (Text.collapse s)
  startsWith openers ps && ps.contains (.char '{')

/-- **Chain continuations**: after collapsing, a text that begins with a chain keyword. A brace is
not asked for. -/
def isChain (s : Text) : Bool := startsWith chains (Piece.lex (Text.collapse s))

end TemplateLayout.Directive
