import TemplateLayout.Proofs.Spans

/-! # Spans and the gaps between them
Every text is gaps and spans in turn, with a rest behind the last span. A span begins at the first
`{{` behind the span before it and ends at the first `}}` behind its own beginning, so there is only
one way to cut a text like this. Normal form rewrites what is inside the spans. It moves none of
these places: no gap changes, no span is made or lost, and a second pass finds nothing to do.

* `Text.UpTo` — a text that goes up to the first of two marks;
* `Interpolation.Spanned` — the gaps, spans and rest of a text;
* `Interpolation.exists_spanned`, `Interpolation.Spanned.unique` — every text has them, in one way;
* `Interpolation.Spanned.normalize` — those of the normal form;
* `Interpolation.normalize_keeps_spans` — all of this together.
-/

namespace TemplateLayout

open Piece

/-! ## First marks -/

namespace Text

variable {mark x y r t : Text} {c : CodePoint}

/-- A text goes **up to the first mark** of a text that begins with both: with the mark behind it,
no mark ends earlier. -/
def UpTo (mark x : Text) : Prop := ∀ a b, x ++ mark = a ++ mark ++ b → b = []

/-- **There is only one first mark.** -/
theorem UpTo.append_inj (hx : UpTo mark x) (hy : UpTo mark y)
    (h : x ++ mark ++ r = y ++ mark ++ t) : x = y ∧ r = t := by
  rcases List.append_eq_append_iff.1 h with ⟨b, hb, hr⟩ | ⟨b, hb, ht⟩
  · obtain rfl := hy x b hb
    rw [List.append_nil] at hb
    exact ⟨(List.append_cancel_right hb).symm, hr⟩
  · obtain rfl := hx y b hb
    rw [List.append_nil] at hb
    exact ⟨List.append_cancel_right hb, ht.symm⟩

/-- Before a mark that stands first there is nothing. -/
theorem upTo_nil (mark : Text) : UpTo mark [] := by
  intro a b hab
  have hlength := congrArg List.length hab
  simp only [List.nil_append, List.length_append] at hlength
  exact List.eq_nil_of_length_eq_zero (by omega)

theorem UpTo.tail (h : UpTo mark (c :: x)) : UpTo mark x := by
  intro a b hab
  refine h (c :: a) b ?_
  rw [List.cons_append, hab]
  rfl

/-- A character in front leaves the first mark the first, unless a mark begins with it. -/
theorem UpTo.cons (h : UpTo mark x) (hc : ¬ mark <+: c :: (x ++ mark)) : UpTo mark (c :: x) := by
  intro a b hab
  cases a with
  | nil => exact absurd ⟨b, hab.symm⟩ hc
  | cons d a => exact h a b (List.cons.inj hab).2

end Text

/-! ## The marks of a span -/

namespace Piece

open Text

variable {s r e gap : Text} {c : CodePoint}

/-- The two braces that open a span. -/
def opening : Text := [.char '{', .char '{']

/-- A character begins no `{{` if the brace does not follow it. -/
theorem not_opening_prefix (h : c = .char '{' → s.head? ≠ some (.char '{')) :
    ¬ opening <+: c :: s := by
  rintro ⟨r, hr⟩
  obtain ⟨hc, hs⟩ := List.cons.inj hr
  refine h hc.symm ?_
  rw [← hs]
  rfl

/-- **An expression goes up to the first** `}}`. -/
theorem upTo_closing_iff : UpTo closing e ↔ IsExpr e := by
  have hsome (a : Text) : splitClose (a ++ closing) ≠ none := by
    intro hnone
    exact absurd (splitClose_right_none hnone) (by simp [closing, splitClose])
  constructor
  · intro h
    obtain ⟨⟨e', rest⟩, hsplit⟩ := Option.ne_none_iff_exists'.1 (hsome e)
    have heq := eq_of_splitClose hsplit
    obtain rfl : rest = [] := h e' rest (by rw [heq]; simp [closing])
    obtain rfl : e = e' := List.append_cancel_right heq
    exact hsplit
  · intro h a b hab
    obtain ⟨⟨e', rest⟩, hsplit⟩ := Option.ne_none_iff_exists'.1 (hsome a)
    -- What is found in the first part is what is found in the whole, where nothing is left over.
    have happ := splitClose_append hsplit b
    rw [← hab, h] at happ
    have hrest : rest ++ b = [] := (Prod.mk.inj (Option.some.inj happ)).2.symm
    exact (List.append_eq_nil_iff.1 hrest).2

/-- Before the first `{{` every character is a piece of its own. -/
theorem lex_append_opening (hgap : UpTo opening gap) (r : Text) :
    lex (gap ++ opening ++ r) = gap.map .point ++ lex (opening ++ r) := by
  induction gap with
  | nil => rfl
  | cons c gap ih =>
    have hc : c = .char '{' → (gap ++ opening ++ r).head? ≠ some (.char '{') := by
      rintro rfl hhead
      -- The mark would begin at this character, and something would be left behind it.
      cases gap with
      | nil => exact absurd (hgap [] [.char '{'] rfl) (by simp)
      | cons d gap =>
        obtain rfl : d = .char '{' := Option.some.inj hhead
        exact absurd (hgap [] (gap ++ opening) rfl) (by simp [opening])
    rw [List.cons_append, List.cons_append, lex_cons hc, ih hgap.tail, List.map_cons,
      List.cons_append]

/-- The pieces of a text up to its first span, with that span. -/
theorem lex_gap_span (hgap : UpTo opening gap) (he : UpTo closing e) (s : Text) :
    lex (gap ++ opening ++ (e ++ closing ++ s)) = gap.map .point ++ .span e :: lex s := by
  have hspan : opening ++ (e ++ closing ++ s) =
      .char '{' :: .char '{' :: (e ++ .char '}' :: .char '}' :: s) := by
    simp [opening, closing]
  rw [lex_append_opening hgap, hspan, lex_span ((upTo_closing_iff.1 he).splitClose s)]

/-- A text has no span if no `}}` stands behind a `{{` in it. -/
theorem lex_of_unclosed (hs : ∀ a r, s = a ++ opening ++ r → ¬ closing <:+: r) :
    lex s = s.map .point := by
  fun_induction lex s with
  | case1 => rfl
  | case2 r e rest h =>
    refine absurd ⟨e, rest, ?_⟩ (hs [] r rfl)
    rw [eq_of_splitClose h]
    simp [closing]
  | case3 => rfl
  | case4 c r _ ih =>
    rw [List.map_cons, ih]
    intro a t hat
    refine hs (c :: a) t ?_
    rw [hat]
    rfl

end Piece

/-! ## Gaps, spans and the rest -/

namespace Interpolation

open Text

variable {s rest rest' : Text} {spans spans' : List (Text × Text)} {c : CodePoint}

/-- The text `s` has the **spans** `spans`, each with the gap before it and the expression in it,
and behind the last of them the rest `rest`. -/
inductive Spanned : Text → List (Text × Text) → Text → Prop where
  /-- There is no span: no `}}` stands behind a `{{`. -/
  | rest {s : Text} (hs : ∀ a r, s = a ++ opening ++ r → ¬ closing <:+: r) : Spanned s [] s
  /-- A gap up to the first `{{`, an expression up to the first `}}` behind it, and more. -/
  | span {gap e s rest : Text} {spans : List (Text × Text)} (hgap : UpTo opening gap)
      (he : UpTo closing e) (h : Spanned s spans rest) :
      Spanned (gap ++ opening ++ (e ++ closing ++ s)) ((gap, e) :: spans) rest

/-- A character that begins no `{{` belongs to the first gap, or to the rest. -/
theorem Spanned.exists_cons (h : Spanned s spans rest)
    (hc : c = .char '{' → s.head? ≠ some (.char '{')) :
    ∃ spans' rest', Spanned (c :: s) spans' rest' := by
  have hmark := not_opening_prefix hc
  cases h with
  | rest hs =>
    refine ⟨[], c :: s, .rest fun a r har => ?_⟩
    cases a with
    | nil => exact absurd ⟨r, har.symm⟩ hmark
    | cons d a => exact hs a r (List.cons.inj har).2
  | @span gap e s _ spans hgap he h =>
    have hgap' : UpTo opening (c :: gap) := by
      refine hgap.cons fun hprefix => hmark ?_
      exact hprefix.trans ⟨e ++ closing ++ s, rfl⟩
    exact ⟨(c :: gap, e) :: spans, rest, .span hgap' he h⟩

/-- **Every text is gaps, spans and a rest.** -/
theorem exists_spanned (s : Text) : ∃ spans rest, Spanned s spans rest := by
  fun_induction lex s with
  | case1 => exact ⟨[], [], .rest fun a r har => by simp [opening] at har⟩
  | case2 r e rest h ih =>
    obtain ⟨spans, rest', hrest⟩ := ih
    have hspan := hrest.span (upTo_nil opening) (upTo_closing_iff.2 (isExpr_of_splitClose h))
    refine ⟨([], e) :: spans, rest', ?_⟩
    rw [eq_of_splitClose h]
    simpa [opening, closing] using hspan
  | case3 r h =>
    refine ⟨[], _, .rest fun a t hat hclosing => ?_⟩
    -- The rest has no `}}`, so what stands behind any of its `{{` has none.
    have hnone : splitClose (opening ++ r) = none := by
      rw [opening, List.cons_append, splitClose_cons (by simp), List.cons_append,
        splitClose_cons (by simp), List.nil_append, h]
      rfl
    rw [splitClose_eq_none_iff] at hnone
    exact hnone (hclosing.trans ⟨a ++ opening, [], by rw [List.append_nil]; exact hat.symm⟩)
  | case4 c r hcr ih =>
    obtain ⟨spans, rest, hrest⟩ := ih
    exact hrest.exists_cons fun hc => head?_ne_of_ne_cons hcr hc

/-- **Gaps, spans and the rest of a text are determined by it.** -/
theorem Spanned.unique (h : Spanned s spans rest) (h' : Spanned s spans' rest') :
    spans' = spans ∧ rest' = rest := by
  induction h generalizing spans' rest' with
  | @rest s hs =>
    generalize hst : s = t at h'
    cases h' with
    | rest => exact ⟨rfl, rfl⟩
    | @span gap e t _ _ hgap he h' =>
      exact absurd ⟨e, t, rfl⟩ (hs gap (e ++ closing ++ t) hst)
  | @span gap e s rest spans hgap he h ih =>
    generalize hst : gap ++ opening ++ (e ++ closing ++ s) = t at h'
    cases h' with
    | rest ht => exact absurd ⟨e, s, rfl⟩ (ht gap (e ++ closing ++ s) hst.symm)
    | span hgap' he' h' =>
      obtain ⟨rfl, hbehind⟩ := hgap.append_inj hgap' hst
      obtain ⟨rfl, rfl⟩ := he.append_inj he' hbehind
      obtain ⟨rfl, rfl⟩ := ih h'
      exact ⟨rfl, rfl⟩

/-- So a text has these gaps, spans and rest, and no others. -/
theorem Spanned.spanned_iff (h : Spanned s spans rest) :
    Spanned s spans' rest' ↔ spans' = spans ∧ rest' = rest := by
  constructor
  · exact h.unique
  · rintro ⟨rfl, rfl⟩
    exact h

/-! ## Normal form -/

/-- An expression **padded**: collapsed, with a space before it and one behind it. -/
def padded (e : Text) : Text := .char ' ' :: collapse e ++ [.char ' ']

/-- **The spans of the normal form**: the gaps and the rest stay, the expressions are padded. -/
theorem Spanned.normalize (h : Spanned s spans rest) :
    Spanned (normalize s) (spans.map (Prod.map id padded)) rest := by
  induction h with
  | @rest s hs =>
    rw [Interpolation.normalize, lex_of_unclosed hs, normalAll_map_point]
    exact .rest hs
  | @span gap e s rest spans hgap he h ih =>
    have hpadded : UpTo closing (padded e) :=
      upTo_closing_iff.2 (upTo_closing_iff.1 he).pad
    have hnormal : Interpolation.normalize (gap ++ opening ++ (e ++ closing ++ s)) =
        gap ++ opening ++ (padded e ++ closing ++ Interpolation.normalize s) := by
      rw [Interpolation.normalize, lex_gap_span hgap he, normalAll_append, normalAll_map_point,
        normalAll_cons, Interpolation.normalize]
      simp [normal, normalSpan, padded, opening, closing]
    rw [hnormal]
    exact .span hgap hpadded ih

/-- **Normal form keeps the spans of a text.** Put in normal form twice, a text is as it is after
once. It has the same spans in the same order as before, with the same gaps between them and the
same rest, and the expression in each is the old one, collapsed between two spaces. -/
theorem normalize_keeps_spans (s : Text) :
    normalize (normalize s) = normalize s ∧
      ∃ spans rest,
        (∀ spans' rest', Spanned s spans' rest' ↔ spans' = spans ∧ rest' = rest) ∧
        ∀ spans' rest', Spanned (normalize s) spans' rest' ↔
          spans' = spans.map (Prod.map id padded) ∧ rest' = rest := by
  obtain ⟨spans, rest, h⟩ := exists_spanned s
  exact ⟨normalize_normalize s, spans, rest, fun _ _ => h.spanned_iff,
    fun _ _ => h.normalize.spanned_iff⟩

end Interpolation

end TemplateLayout
