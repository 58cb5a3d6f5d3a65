import TemplateLayout.Proofs.Bodies
import TemplateLayout.Proofs.HeaderLines

/-! # The shape of fragments
What can be said of the fragments of a text without cutting it. Each fragment is a text of its own
kind: a header has a keyword and a body between an `@` and its brace, plain text has no brace that
closes outside its spans, and all spans are in normal form. Plain texts are kept apart by headers
and closers, and all fragments together show what the text shows.

* `Piece.IsComplete` — what may stand in the body of a header: a span, or a character other than a
  brace;
* `Header.HasForm` — the text of a header by its grammar;
* `Text.InSpan` — a place of a text inside one of its spans;
* `Fragment.Shaped` — the shape; `Fragment.shaped_segment` — every text is cut into it.
-/

namespace TemplateLayout

open Text Piece Token Directive

variable {v a b e : Text} {c : CodePoint} {p : Piece} {ps : List Piece} {f : Fragment}

/-! ## Pieces and places -/

namespace Piece

/-- A piece is **complete** if it is a span that ends at its first `}}`, or a character other than a
brace. -/
def IsComplete : Piece → Prop
  | .point c => c ≠ .char '{' ∧ c ≠ .char '}'
  | .span e => IsExpr e

/-- The spans of pieces that are read back hold expressions. -/
theorem Lexed.isExpr (h : Lexed ps) (he : .span e ∈ ps) : IsExpr e := by
  induction h with
  | nil => exact absurd he List.not_mem_nil
  | span he' _ ih =>
    rcases List.mem_cons.1 he with heq | hmem
    · exact span.inj heq ▸ he'
    · exact ih hmem
  | point _ _ ih => exact ih ((List.mem_cons.1 he).resolve_left (by simp))
  | opened => simp at he

/-- Without a brace outside its spans a text has only complete pieces. -/
theorem isComplete_of_mem_lex (hp : p ∈ lex v) (hbrace : ¬ IsBrace p) : IsComplete p := by
  cases p with
  | span e => exact (lexed_lex v).isExpr hp
  | point d =>
    exact ⟨fun hd => hbrace (.inl (congrArg point hd)), fun hd => hbrace (.inr (congrArg point hd))⟩

/-- Every place of what pieces write lies in one of them. -/
theorem exists_piece_at (h : sourceAll ps = a ++ c :: b) :
    ∃ l p r x y, ps = l ++ p :: r ∧ a = sourceAll l ++ x ∧ p.source = x ++ c :: y ∧
      b = y ++ sourceAll r := by
  induction ps generalizing a with
  | nil => simp at h
  | cons p ps ih =>
    rw [sourceAll_cons] at h
    rcases List.append_eq_append_iff.1 h with ⟨a', rfl, hps⟩ | ⟨y, hp, hb⟩
    · obtain ⟨l, q, r, x, y, rfl, rfl, hq, rfl⟩ := ih hps
      exact ⟨p :: l, q, r, x, y, rfl, by simp, hq, rfl⟩
    · cases y with
      | nil =>
        -- The place is the first of the next piece.
        obtain ⟨l, q, r, x, y, rfl, hx, hq, rfl⟩ := ih (a := []) hb.symm
        exact ⟨p :: l, q, r, x, y, rfl, by rw [sourceAll_cons, hp]; simp [hx.symm], hq, rfl⟩
      | cons d y =>
        obtain ⟨rfl, rfl⟩ := List.cons.inj hb
        exact ⟨[], p, ps, a, y, rfl, rfl, hp, rfl⟩

end Piece

/-- In the text `a ++ c :: b`, the place of `c` lies **inside a span**. -/
def Text.InSpan (a : Text) (c : CodePoint) (b : Text) : Prop :=
  ∃ l e r x y, lex (a ++ c :: b) = l ++ .span e :: r ∧ a = sourceAll l ++ x ∧
    (Piece.span e).source = x ++ c :: y ∧ b = y ++ sourceAll r

/-- A character that stands nowhere outside the spans lies inside a span. -/
theorem Text.inSpan_of_notMem (h : .point c ∉ lex (a ++ c :: b)) : InSpan a c b := by
  obtain ⟨l, p, r, x, y, hlex, ha, hp, hb⟩ := exists_piece_at (sourceAll_lex (a ++ c :: b))
  cases p with
  | span e => exact ⟨l, e, r, x, y, hlex, ha, hp, hb⟩
  | point d =>
    -- A piece of one character at this place is the character itself.
    obtain ⟨rfl, hd⟩ : x = [] ∧ d = c := by
      cases x with
      | nil => exact ⟨rfl, (List.cons.inj hp).1⟩
      | cons d' x => simp [Piece.source] at hp
    subst hd
    rw [hlex] at h
    exact absurd (List.mem_append_right _ List.mem_cons_self) h

/-- In a text in normal form every span is written as its normal form. -/
theorem Piece.source_eq_normalSpan (hv : Interpolation.normalize v = v) (he : .span e ∈ lex v) :
    (Piece.span e).source = normalSpan e := by
  have htidy : (Piece.span e).tidy = .span e := by
    rw [← hv, lex_normalize] at he
    obtain ⟨q, -, hq⟩ := List.mem_map.1 he
    rw [← hq, tidy_tidy]
  rw [← htidy, source_tidy]
  rfl

/-! ## Headers -/

/-- A text **has the form of a header**: `@`, a keyword that is a whole word, complete pieces, and a
brace. -/
def Header.HasForm (v : Text) : Prop :=
  ∃ k ∈ headers, ∃ ps : List Piece, v = .char '@' :: (k ++ (sourceAll ps ++ [.char '{'])) ∧
    atBoundary (ps ++ [.char '{']) = true ∧ ∀ p ∈ ps, p.IsComplete

theorem Header.hasForm_of_isHeader (hv : Fragment.IsHeader v) : HasForm v := by
  obtain ⟨s, rfl, hs, hword⟩ := isHeader_iff.1 hv
  obtain ⟨ps, hlex, hbound⟩ := exists_leadingWord (lex s)
  have hsource : s = leadingWord (lex s) ++ sourceAll ps := by
    conv => lhs; rw [← sourceAll_lex s, hlex]
    rw [sourceAll_append, sourceAll_map_point]
  refine ⟨leadingWord (lex s), hword, ps, ?_, ?_, ?_⟩
  · rw [enclose, ← List.append_assoc, ← hsource]
  · cases ps with
    | nil => rfl
    | cons p ps => cases p <;> exact hbound
  · intro p hp
    have hmem : p ∈ lex s := by
      rw [hlex]
      exact List.mem_append_right _ hp
    exact isComplete_of_mem_lex hmem (hs p hmem)

/-! ## Fragments -/

namespace Fragment

/-- The **shape** of the fragments `fs` of a text `s`. -/
structure Shaped (s : Text) (fs : List Fragment) : Prop where
  /-- No fragment is empty. -/
  ne_nil : ∀ f ∈ fs, f.value ≠ []
  /-- No fragment has a blank at an end. -/
  trimmed : ∀ f ∈ fs, trim f.value = f.value
  /-- No two plain texts follow each other. -/
  separate : ∀ l v w r, fs ≠ l ++ .plain v :: .plain w :: r
  /-- Headers have their form. -/
  header : ∀ v, .header v ∈ fs → Header.HasForm v
  /-- In plain text every brace that closes lies inside a span. -/
  closer : ∀ v, .plain v ∈ fs → ∀ a b, v = a ++ .char '}' :: b → InSpan a (.char '}') b
  /-- Every span is in normal form. -/
  normal : ∀ f ∈ fs, ∀ e, .span e ∈ lex f.value → (Piece.span e).source = normalSpan e
  /-- The fragments show what the text shows, in order. -/
  shows : visible (fs.flatMap value) = visible s

/-- **Every text is cut into fragments of this shape.** -/
theorem shaped_segment (s : Text) : Shaped s (segment s) where
  ne_nil := by
    intro f hf
    obtain ⟨gs, hsettled⟩ := (settled_segment s).exists_of_mem hf
    exact hsettled.ne_nil
  trimmed := by
    intro f hf
    obtain ⟨gs, hsettled⟩ := (settled_segment s).exists_of_mem hf
    exact hsettled.trimmed
  separate := by
    intro l v w r heq
    have hsettled := settled_segment s
    rw [heq] at hsettled
    exact absurd hsettled.right.1.separate (by simp [startsPlain])
  header := by
    intro v hv
    obtain ⟨gs, hsettled⟩ := (settled_segment s).exists_of_mem hv
    exact Header.hasForm_of_isHeader hsettled.1.1
  closer := by
    rintro _ hv a b rfl
    obtain ⟨gs, hsettled⟩ := (settled_segment s).exists_of_mem hv
    exact inSpan_of_notMem hsettled.1.noCloser
  normal := by
    intro f hf e he
    obtain ⟨gs, hsettled⟩ := (settled_segment s).exists_of_mem hf
    exact source_eq_normalSpan hsettled.normal he
  shows := visible_segment s

end Fragment

end TemplateLayout
