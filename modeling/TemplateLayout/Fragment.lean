import TemplateLayout.Directive

/-! # Fragments
A text node may hold several lines of a template at once: plain text, block headers, closers.
Cutting it gives its fragments in order. The text is read as pieces, the pieces as tokens, and the
plain tokens between two others make one run.

* `Fragment` — plain text, a header with its brace, or a closer;
* `Token.ofPieces` — pieces grouped into headers, closers and the rest;
* `Fragment.segment` — the fragments of a text.
-/

namespace TemplateLayout

/-! ## Tokens -/

/-- A **token**: what a position of a text begins. -/
inductive Token where
  /-- A piece of plain text. -/
  | plain (p : Piece)
  /-- A block header, from its `@` to its brace. -/
  | header (ps : List Piece)
  /-- A `}` outside every span and header. -/
  | close
  deriving DecidableEq, Repr

namespace Token

/-- The pieces up to the first block brace, that brace included, and the pieces after it. A `}` or
an unclosed `{{` on the way means that there is no such brace. -/
def takeBrace : List Piece → Option (List Piece × List Piece)
  | [] => none
  | .char '{' :: .char '{' :: _ => none
  | .char '{' :: ps => some ([.char '{'], ps)
  | .char '}' :: _ => none
  | p :: ps => (takeBrace ps).map fun (body, rest) => (p :: body, rest)

/-- A brace splits the pieces: what is taken and what is left are all of them. -/
theorem append_of_takeBrace {ps body rest : List Piece} (h : takeBrace ps = some (body, rest)) :
    body ++ rest = ps := by
  fun_induction takeBrace ps generalizing body rest with
  | case1 => simp at h
  | case2 => simp at h
  | case3 ps =>
    simp only [Option.some.injEq, Prod.mk.injEq] at h
    obtain ⟨rfl, rfl⟩ := h
    rfl
  | case4 => simp at h
  | case5 p ps _ _ _ ih =>
    simp only [Option.map_eq_some_iff, Prod.mk.injEq] at h
    obtain ⟨⟨body', rest'⟩, hr, rfl, rfl⟩ := h
    simp [ih hr]

/-- The header that pieces begin with, and the pieces after it. -/
def takeHeader (ps : List Piece) : Option (List Piece × List Piece) :=
  if Directive.startsWith Directive.headers ps then takeBrace ps else none

/-- A header is never empty, so what follows it is shorter. -/
theorem length_of_takeHeader {ps body rest : List Piece} (h : takeHeader ps = some (body, rest)) :
    rest.length < ps.length := by
  have hb : takeBrace ps = some (body, rest) := by
    unfold takeHeader at h
    split at h
    · exact h
    · simp at h
  have happ := append_of_takeBrace hb
  have hne : body ≠ [] := by
    rintro rfl
    simp only [List.nil_append] at happ
    subst happ
    fun_cases takeBrace rest <;> simp_all [takeBrace]
  have := List.length_pos_iff.mpr hne
  rw [← happ, List.length_append]
  omega

/-- **The tokens of pieces**: at each position a header if one begins there, else a closer, else the
piece itself. -/
def ofPieces (ps : List Piece) : List Token :=
  match ps with
  | [] => []
  | p :: rest =>
    match _ : takeHeader (p :: rest) with
    | some (body, after) => .header body :: ofPieces after
    | none => (if p = .char '}' then .close else .plain p) :: ofPieces rest
termination_by ps.length
decreasing_by
  · exact length_of_takeHeader ‹takeHeader (p :: rest) = _›
  · simp

end Token

/-! ## Fragments -/

/-- A **fragment** of a text node. -/
inductive Fragment where
  /-- A run of plain text, trimmed, its spans in normal form. -/
  | plain (value : Text)
  /-- A block header up to its brace, its spans in normal form. -/
  | header (value : Text)
  /-- A block closer. -/
  | close
  deriving DecidableEq, Repr

namespace Fragment

/-- The text of a fragment. -/
def value : Fragment → Text
  | .plain v => v
  | .header v => v
  | .close => [.char '}']

/-- Puts a run of plain text before fragments, unless it is blank. -/
def consPlain (run : Text) (rest : List Fragment) : List Fragment :=
  if (Text.trim run).isEmpty then rest else .plain (Text.trim run) :: rest

/-- The plain run that touches the start of some tokens, and the fragments after it. -/
def splitRun : List Token → Text × List Fragment
  | [] => ([], [])
  | .plain p :: ts =>
    let (run, rest) := splitRun ts
    (p.normal ++ run, rest)
  | .header ps :: ts =>
    let (run, rest) := splitRun ts
    ([], .header (Piece.normalAll ps) :: consPlain run rest)
  | .close :: ts =>
    let (run, rest) := splitRun ts
    ([], .close :: consPlain run rest)

/-- The fragments of some tokens: runs of plain text, headers and closers, in order. -/
def ofTokens (ts : List Token) : List Fragment :=
  let (run, rest) := splitRun ts
  consPlain run rest

/-- **The fragments of a text**, in order. Blank runs leave no fragment. -/
def segment (s : Text) : List Fragment := ofTokens (Token.ofPieces (Piece.lex s))

end Fragment

end TemplateLayout
