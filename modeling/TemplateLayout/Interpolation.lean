import TemplateLayout.Text.Blank

/-! # Interpolation spans
An interpolation span runs from `{{` to the first `}}` after it and may hold line breaks. What
stands inside a span is an expression of the host language: no brace, keyword or blank in it means
anything to the layout. A text is therefore read as a list of pieces, each one code point or one
whole span, and every other scanner of the library works on those pieces.

* `Piece.splitClose` — the expression before the first `}}`, and what follows;
* `Piece.lex` — a text as pieces, spans found from the left;
* `Piece.source` — a piece as it was written;
* `Piece.normal` — a piece with its span written `{{ expr }}`;
* `Interpolation.normalize` — a text with every span in that form.
-/

namespace TemplateLayout

/-- A **piece** of a text: one code point that belongs to no span, or one whole span. -/
inductive Piece where
  /-- A code point outside every span. -/
  | point (c : CodePoint)
  /-- A span `{{expr}}`, known by the expression between its braces. -/
  | span (expr : Text)
  deriving DecidableEq, Repr

namespace Piece

/-- A character outside every span. -/
@[match_pattern] abbrev char (c : Char) : Piece := .point (.char c)

/-! ## Finding spans -/

/-- The part before the first `}}` and the part after it, if there is one. -/
def splitClose : Text → Option (Text × Text)
  | [] => none
  | .char '}' :: .char '}' :: r => some ([], r)
  | c :: r => (splitClose r).map fun (expr, rest) => (c :: expr, rest)

/-- Splitting loses nothing but the two braces that it splits at. -/
theorem eq_of_splitClose {s expr rest : Text} (h : splitClose s = some (expr, rest)) :
    s = expr ++ .char '}' :: .char '}' :: rest := by
  fun_induction splitClose s generalizing expr rest with
  | case1 => simp at h
  | case2 r =>
    simp only [Option.some.injEq, Prod.mk.injEq] at h
    obtain ⟨rfl, rfl⟩ := h
    rfl
  | case3 c r _ ih =>
    simp only [Option.map_eq_some_iff, Prod.mk.injEq] at h
    obtain ⟨⟨expr', rest'⟩, hr, rfl, rfl⟩ := h
    rw [ih hr, List.cons_append]

/-- What follows a closing `}}` is shorter by the two braces and the expression before them. -/
theorem length_of_splitClose {s expr rest : Text} (h : splitClose s = some (expr, rest)) :
    s.length = expr.length + rest.length + 2 := by
  rw [eq_of_splitClose h]
  simp only [List.length_append, List.length_cons]
  omega

/-- **The pieces of a text**, from the left: at `{{` the text up to the first `}}` is one span.
Where no `}}` follows there is no span any more, and all that is left is plain. -/
def lex (s : Text) : List Piece :=
  match s with
  | [] => []
  | .char '{' :: .char '{' :: r =>
    match _ : splitClose r with
    | some (expr, rest) => .span expr :: lex rest
    | none => (.char '{' :: .char '{' :: r).map .point
  | c :: r => .point c :: lex r
termination_by s.length
decreasing_by
  · have := length_of_splitClose ‹splitClose r = _›
    simp only [List.length_cons]
    omega
  · simp

/-! ## Writing pieces -/

/-- A piece exactly as it was written. -/
def source : Piece → Text
  | .point c => [c]
  | .span expr => .char '{' :: .char '{' :: expr ++ [.char '}', .char '}']

/-- A span in its **normal form** `{{ expr }}`, its expression collapsed. -/
def normalSpan (expr : Text) : Text :=
  [.char '{', .char '{', .char ' '] ++ Text.collapse expr ++ [.char ' ', .char '}', .char '}']

/-- A piece with its span in normal form; a code point stays as it is. -/
def normal : Piece → Text
  | .point c => [c]
  | .span expr => normalSpan expr

/-- Pieces as they were written. -/
def sourceAll (ps : List Piece) : Text := ps.flatMap source

/-- Pieces with every span in normal form. -/
def normalAll (ps : List Piece) : Text := ps.flatMap normal

@[simp] theorem sourceAll_nil : sourceAll [] = [] := rfl

@[simp] theorem sourceAll_cons (p : Piece) (ps : List Piece) :
    sourceAll (p :: ps) = p.source ++ sourceAll ps := rfl

/-- **Reading pieces loses nothing**: written as they were, they are the text again. -/
theorem sourceAll_lex (s : Text) : sourceAll (lex s) = s := by
  fun_induction lex s with
  | case1 => rfl
  | case2 r expr rest h ih =>
    rw [sourceAll_cons, ih, eq_of_splitClose h]
    simp [source]
  | case3 r h => simp [sourceAll, List.flatMap_map, source]
  | case4 c r _ ih =>
    rw [sourceAll_cons, ih]
    rfl

@[simp] theorem normalAll_nil : normalAll [] = [] := rfl

@[simp] theorem normalAll_cons (p : Piece) (ps : List Piece) :
    normalAll (p :: ps) = p.normal ++ normalAll ps := rfl

end Piece

namespace Interpolation

/-- A text with every span in normal form and everything between the spans unchanged. -/
def normalize (s : Text) : Text := Piece.normalAll (Piece.lex s)

/-- A text at an indent, its spans in normal form. -/
def line (s indent : Text) : Text := indent ++ normalize s

/-- Whether a text is one span and nothing else, blanks at its ends apart. -/
def isSingleSpan (s : Text) : Bool :=
  match Piece.lex (Text.trim s) with
  | [.span _] => true
  | _ => false

end Interpolation

end TemplateLayout
