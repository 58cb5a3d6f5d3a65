import TemplateLayout.Proofs.Tokens

/-! # Spans are opaque
What stands inside an interpolation span has no part in how a text is cut. Two texts that differ in
one expression give the same fragments but for the one that holds the span. That one shows the
expression collapsed, together with the end of the text before it where that end is open: there the
blanks at the start of the expression become blanks inside one.

* `Piece.LeavesOpen` — the end of a text belongs to the span after it;
* `Piece.exists_lex_span` — a text is read around a span in the same way, whatever is in it;
* `Token.exists_tokens_span`, `Fragment.exists_fragments_span` — so it is cut in the same way;
* `Fragment.segment_span_opaque` — what two expressions can change, and when they change nothing.
-/

namespace TemplateLayout

open Text Piece

/-! ## Reading around a span -/

namespace Piece

variable {a b e x y : Text} {p : Piece} {ps qs : List Piece}

/-- Pieces **end open**: a `{{` among them has no `}}`, or the last of them is a brace that would
become part of a `{{` behind it. -/
def EndsOpen (ps : List Piece) : Prop := IsOpen ps ∨ ps.getLast? = some (.char '{')

/-- A text **leaves a span open** if a span behind it begins inside it. -/
def LeavesOpen (a : Text) : Prop := EndsOpen (lex a)

/-- A piece in front does not change how pieces end, unless a brace touches them. -/
theorem endsOpen_cons (h : p = .char '{' → ∃ q qs, ps = q :: qs ∧ q ≠ .char '{') :
    EndsOpen (p :: ps) ↔ EndsOpen ps := by
  have hopen : IsOpen (p :: ps) ↔ IsOpen ps := by
    refine ⟨?_, fun ho => ho.cons p⟩
    rintro ⟨l, r, hl⟩
    cases l with
    | nil =>
      obtain ⟨rfl, rfl⟩ := List.cons.inj hl
      obtain ⟨q, qs, hqs, hq⟩ := h rfl
      exact absurd (List.cons.inj hqs).1.symm hq
    | cons q l => exact ⟨l, r, (List.cons.inj hl).2⟩
  have hlast : (p :: ps).getLast? = some (.char '{') ↔ ps.getLast? = some (.char '{') := by
    cases ps with
    | nil =>
      have hp : p ≠ .char '{' := by
        intro hp
        obtain ⟨q, qs, hqs, -⟩ := h hp
        simp at hqs
      simpa using hp
    | cons q ps => rw [List.getLast?_cons_cons]
  rw [EndsOpen, EndsOpen, hopen, hlast]

/-- Behind an open brace an expression belongs to a longer one. -/
theorem IsExpr.append_brace (he : IsExpr e) (ha : Piece.splitClose a = none) :
    IsExpr (a ++ .char '{' :: e) := by
  obtain ⟨hnone, hlast⟩ := isExpr_iff.1 he
  have hbrace : Piece.splitClose (.char '{' :: e) = none := by
    rw [splitClose_cons (by simp), hnone]
    rfl
  refine isExpr_iff.2 ⟨splitClose_append_none ha hbrace (by simp), ?_⟩
  rw [List.getLast?_append, List.getLast?_cons]
  cases h : e.getLast? with
  | none => simp
  | some c =>
    rw [h] at hlast
    simpa using hlast

theorem lex_source_span (he : IsExpr e) (b : Text) :
    lex ((span e).source ++ b) = .span e :: lex b := by
  have hs : (span e).source ++ b =
      .char '{' :: .char '{' :: (e ++ .char '}' :: .char '}' :: b) := by
    simp [source]
  rw [hs, lex_span (he.splitClose b)]

/-- A brace and the span behind it are one span. -/
theorem lex_brace_source_span (he : IsExpr e) (b : Text) :
    lex (.char '{' :: ((span e).source ++ b)) = .span (.char '{' :: e) :: lex b := by
  have hs : .char '{' :: ((span e).source ++ b) =
      (.char '{' :: .char '{' :: (.char '{' :: e ++ .char '}' :: .char '}' :: b) : Text) := by
    simp [source]
  have he' : IsExpr (.char '{' :: e) := he.append_brace (a := []) rfl
  rw [hs, lex_span (he'.splitClose b)]

/-- An open `{{` closes at the end of the span behind it. -/
theorem lex_open_source_span (ha : Piece.splitClose a = none) (he : IsExpr e) (b : Text) :
    lex (.char '{' :: .char '{' :: (a ++ ((span e).source ++ b))) =
      .span (a ++ .char '{' :: .char '{' :: e) :: lex b := by
  have hs : a ++ ((span e).source ++ b) =
      a ++ .char '{' :: .char '{' :: e ++ .char '}' :: .char '}' :: b := by
    simp [source]
  have he' : IsExpr (a ++ .char '{' :: .char '{' :: e) :=
    IsExpr.append_brace (he.append_brace (a := []) rfl) ha
  rw [hs, lex_span (he'.splitClose b)]

/-- **A text is read around a span in one way.** What of the text before it becomes part of the
span depends on that text only, and does not end with a blank. -/
theorem exists_lex_span (a : Text) :
    ∃ ps o, (o = [] ↔ ¬ LeavesOpen a) ∧ endsBlank o = false ∧
      ∀ e b, IsExpr e → lex (a ++ ((span e).source ++ b)) = ps ++ .span (o ++ e) :: lex b := by
  unfold LeavesOpen
  fun_induction lex a with
  | case1 =>
    refine ⟨[], [], ?_, rfl, fun e b he => lex_source_span he b⟩
    simp [EndsOpen, IsOpen]
  | case2 r expr rest h ih =>
    -- A span that is closed in the text stays as it is.
    obtain ⟨ps, o, ho, hend, hlex⟩ := ih
    refine ⟨.span expr :: ps, o, ?_, hend, ?_⟩
    · rw [endsOpen_cons (by simp), ho]
    · intro e b he
      rw [List.cons_append, List.cons_append, lex_span (splitClose_append h _), hlex e b he,
        List.cons_append]
  | case3 r h =>
    -- All that stands behind the open `{{`, and the `{{` of the span, becomes part of the span.
    refine ⟨[], r ++ [.char '{', .char '{'], ?_, ?_, ?_⟩
    · have hopen : EndsOpen ((CodePoint.char '{' :: .char '{' :: r).map point) :=
        .inl ⟨[], r.map point, rfl⟩
      exact iff_of_false (by simp) (fun h => h hopen)
    · exact endsBlank_append (by simp) r
    · intro e b he
      rw [List.cons_append, List.cons_append, lex_open_source_span h he b]
      simp
  | case4 c r h ih =>
    by_cases htouch : c = .char '{' ∧ r = []
    · -- The brace is the first of three.
      obtain ⟨rfl, rfl⟩ := htouch
      refine ⟨[], [.char '{'], ?_, rfl, fun e b he => lex_brace_source_span he b⟩
      simp [EndsOpen, lex_nil]
    · have hr : c = .char '{' → ∃ d r', r = d :: r' ∧ d ≠ .char '{' := by
        intro hc
        cases r with
        | nil => exact absurd ⟨hc, rfl⟩ htouch
        | cons d r' => exact ⟨d, r', rfl, fun hd => h r' hc (by rw [hd])⟩
      obtain ⟨ps, o, ho, hend, hlex⟩ := ih
      refine ⟨.point c :: ps, o, ?_, hend, ?_⟩
      · rw [endsOpen_cons, ho]
        intro hc
        obtain ⟨d, r', rfl, hd⟩ := hr (point.inj hc)
        exact ⟨.point d, lex r', lex_cons fun h => absurd h hd, by simpa using hd⟩
      · intro e b he
        have hcons : c = .char '{' → (r ++ ((span e).source ++ b)).head? ≠ some (.char '{') := by
          intro hc
          obtain ⟨d, r', rfl, hd⟩ := hr hc
          simpa using hd
        rw [List.cons_append, lex_cons hcons, hlex e b he, List.cons_append]

end Piece

/-! ## Cutting around a span -/

namespace Token

variable {ps qs : List Piece}

theorem not_isBrace_span (x : Text) : ¬ IsBrace (.span x) := by
  rintro (h | h) <;> simp at h

/-- **A header begins before a span in one way**: there is none, it ends before the span, or the
span is part of it. -/
theorem takeHeader_span (ps qs : List Piece) :
    (∀ x, takeHeader (ps ++ .span x :: qs) = none) ∨
      (∃ body rest, rest.length < ps.length ∧
        ∀ x, takeHeader (ps ++ .span x :: qs) = some (body, rest ++ .span x :: qs)) ∨
      ∃ body rest, ∀ x, takeHeader (ps ++ .span x :: qs) = some (ps ++ .span x :: body, rest) := by
  by_cases hne : ps = []
  · subst hne
    left
    intro x
    exact takeHeader_of_ne (by simp) qs
  have hkey (x : Text) : Directive.startsWith Directive.headers (ps ++ .span x :: qs) =
      Directive.startsWith Directive.headers ps :=
    Directive.startsWith_append Directive.isKeywordList_headers rfl hne
  by_cases hps : Directive.startsWith Directive.headers ps = false
  · left
    intro x
    rw [takeHeader_eq_none_iff, hkey, hps]
    exact fun h => absurd h Bool.false_ne_true
  -- From here on a keyword stands in front, and the block brace decides.
  rw [Bool.not_eq_false] at hps
  have hkey (x : Text) : Directive.startsWith Directive.headers (ps ++ .span x :: qs) = true :=
    (hkey x).trans hps
  cases hbrace : takeBrace ps with
  | some br =>
    obtain ⟨body, rest⟩ := br
    have hlen := length_of_takeHeader (takeHeader_eq_some_iff.2 ⟨hps, hbrace⟩)
    refine .inr (.inl ⟨body, rest, hlen, ?_⟩)
    intro x
    exact takeHeader_eq_some_iff.2 ⟨hkey x, takeBrace_append_right hbrace (by simp)⟩
  | none =>
    by_cases hmem : ∃ p ∈ ps, IsBrace p
    · -- A brace before the span has ended the search.
      obtain ⟨p, hp, hbr⟩ := hmem
      left
      intro x
      rw [takeHeader_eq_none_iff]
      exact fun _ => takeBrace_append_of_mem hbrace hp hbr _
    · -- The search passes over the span and goes on behind it.
      have hps' : ∀ p ∈ ps, ¬ IsBrace p := fun p hp hbr => hmem ⟨p, hp, hbr⟩
      have htake (x : Text) : takeBrace (ps ++ .span x :: qs) =
          (takeBrace qs).map fun br => (ps ++ .span x :: br.1, br.2) := by
        rw [takeBrace_append hps', takeBrace_cons (not_isBrace_span x), Option.map_map]
        rfl
      cases hqs : takeBrace qs with
      | none =>
        left
        intro x
        rw [takeHeader_eq_none_iff, htake, hqs]
        exact fun _ => rfl
      | some br =>
        refine .inr (.inr ⟨br.1, br.2, ?_⟩)
        intro x
        rw [takeHeader_eq_some_iff, htake, hqs]
        exact ⟨hkey x, rfl⟩

/-- A token **holds a span**, which may be any: it is the span, or a header with the span in it. -/
def HoldsSpan (t : Text → Token) : Prop :=
  t = (fun x => .plain (.span x)) ∨ ∃ ps qs, t = fun x => .header (ps ++ .span x :: qs)

/-- **Pieces fall into tokens around a span in one way.** -/
theorem exists_tokens_span (ps qs : List Piece) :
    ∃ ts t us, HoldsSpan t ∧ ∀ x, ofPieces (ps ++ .span x :: qs) = ts ++ t x :: us := by
  generalize hn : ps.length = n
  induction n using Nat.strongRecOn generalizing ps with
  | ind n ih =>
    cases ps with
    | nil =>
      refine ⟨[], fun x => .plain (.span x), ofPieces qs, .inl rfl, ?_⟩
      intro x
      rw [List.nil_append, ofPieces_cons (takeHeader_of_ne (by simp) qs), if_neg (by simp)]
      rfl
    | cons p ps =>
      rcases takeHeader_span (p :: ps) qs with h | ⟨body, rest, hlen, h⟩ | ⟨body, rest, h⟩
      · obtain ⟨ts, t, us, ht, hts⟩ := ih ps.length (by simp [← hn]) ps rfl
        refine ⟨(if p = .char '}' then .close else .plain p) :: ts, t, us, ht, ?_⟩
        intro x
        have hx : takeHeader (p :: (ps ++ .span x :: qs)) = none := h x
        rw [List.cons_append, ofPieces_cons hx, hts x, List.cons_append]
      · obtain ⟨ts, t, us, ht, hts⟩ := ih rest.length (by omega) rest rfl
        refine ⟨.header body :: ts, t, us, ht, ?_⟩
        intro x
        rw [ofPieces_of_takeHeader (h x), hts x, List.cons_append]
      · refine ⟨[], _, ofPieces rest, .inr ⟨p :: ps, body, rfl⟩, ?_⟩
        intro x
        rw [ofPieces_of_takeHeader (h x)]
        rfl

end Token

namespace Fragment

open Token

variable {e x y : Text}

/-- The **kind** of a fragment. -/
inductive Kind where
  /-- Plain text. -/
  | plain
  /-- A header. -/
  | header
  /-- A closer. -/
  | close
  deriving DecidableEq, Repr

/-- Which kind a fragment is of. -/
def kind : Fragment → Kind
  | .plain _ => .plain
  | .header _ => .header
  | .close => .close

/-- A fragment **frames a span**, which may be any, between two fixed texts. -/
def FramesSpan (f : Text → Fragment) : Prop :=
  ∃ m n, f = (fun x => .plain (trim (m ++ (normalSpan x ++ n)))) ∨
    f = fun x => .header (m ++ (normalSpan x ++ n))

theorem FramesSpan.kind_eq {f : Text → Fragment} (h : FramesSpan f) (x y : Text) :
    (f x).kind = (f y).kind := by
  obtain ⟨m, n, rfl | rfl⟩ := h <;> rfl

/-- A span in normal form is its collapsed expression. -/
theorem normalSpan_inj : normalSpan x = normalSpan y ↔ collapse x = collapse y := by
  rw [normalSpan, normalSpan, List.append_left_inj, List.append_right_inj]

theorem endsBlank_normalSpan (x : Text) : endsBlank (normalSpan x) = false :=
  endsBlank_append (by simp) _

/-- Trimming around a span does not touch it. -/
theorem trim_append_normalSpan (m x n : Text) :
    trim (m ++ (normalSpan x ++ n)) = trimLeft m ++ (normalSpan x ++ trimRight n) :=
  trim_append_of_visible (by simp [normalSpan]) rfl (endsBlank_normalSpan x) m n

/-- **A framed span shows its collapsed expression** and nothing else. -/
theorem FramesSpan.eq_iff {f : Text → Fragment} (h : FramesSpan f) :
    f x = f y ↔ collapse x = collapse y := by
  rw [← normalSpan_inj]
  obtain ⟨m, n, rfl | rfl⟩ := h
  · rw [plain.injEq, trim_append_normalSpan, trim_append_normalSpan, List.append_right_inj,
      List.append_left_inj]
  · rw [header.injEq, List.append_right_inj, List.append_left_inj]

/-- A frame holds its span. -/
theorem FramesSpan.infix_value {f : Text → Fragment} (h : FramesSpan f) (x : Text) :
    normalSpan x <:+: (f x).value := by
  obtain ⟨m, n, rfl | rfl⟩ := h
  · rw [value, trim_append_normalSpan]
    exact ⟨trimLeft m, trimRight n, List.append_assoc ..⟩
  · exact ⟨m, n, List.append_assoc ..⟩

/-- A run with a span in it is a fragment. -/
theorem consPlain_span (m x n : Text) (fs : List Fragment) :
    consPlain (m ++ (normalSpan x ++ n)) fs = .plain (trim (m ++ (normalSpan x ++ n))) :: fs := by
  rw [consPlain, if_neg]
  rw [trim_append_normalSpan, normalSpan]
  simp

/-- A span in some tokens is in the run that touches their start, or in a fragment behind it. -/
theorem exists_splitRun_span {t : Text → Token} (ht : HoldsSpan t) (ts us : List Token) :
    (∃ m n fs, ∀ x, splitRun (ts ++ t x :: us) = (m ++ (normalSpan x ++ n), fs)) ∨
      ∃ r fs f gs, FramesSpan f ∧ ∀ x, splitRun (ts ++ t x :: us) = (r, fs ++ f x :: gs) := by
  induction ts with
  | nil =>
    rcases ht with rfl | ⟨ps, qs, rfl⟩
    · exact .inl ⟨[], (splitRun us).1, (splitRun us).2, fun x => rfl⟩
    · refine .inr ⟨[], [], _, consPlain (splitRun us).1 (splitRun us).2,
        ⟨normalAll ps, normalAll qs, .inr rfl⟩, fun x => ?_⟩
      rw [List.nil_append, splitRun, normalAll_append, normalAll_cons, normal]
      rfl
  | cons u ts ih =>
    -- A header or a closer ends the run, so a span in the run becomes one in a fragment.
    have hend (g : Fragment) (hu : ∀ ts, splitRun (u :: ts) =
        ([], g :: consPlain (splitRun ts).1 (splitRun ts).2)) :
        ∃ r fs f gs, FramesSpan f ∧
          ∀ x, splitRun (u :: ts ++ t x :: us) = (r, fs ++ f x :: gs) := by
      rcases ih with ⟨m, n, fs, h⟩ | ⟨r, fs, f, gs, hf, h⟩
      · refine ⟨[], [g], _, fs, ⟨m, n, .inl rfl⟩, ?_⟩
        intro x
        rw [List.cons_append, hu, h x, consPlain_span]
        rfl
      · refine ⟨[], g :: consPlain r fs, f, gs, hf, ?_⟩
        intro x
        rw [List.cons_append, hu, h x, consPlain_append]
        rfl
    cases u with
    | plain p =>
      rcases ih with ⟨m, n, fs, h⟩ | ⟨r, fs, f, gs, hf, h⟩
      · refine .inl ⟨p.normal ++ m, n, fs, ?_⟩
        intro x
        rw [List.cons_append, splitRun, h x, List.append_assoc]
      · refine .inr ⟨p.normal ++ r, fs, f, gs, hf, ?_⟩
        intro x
        rw [List.cons_append, splitRun, h x]
    | header ps => exact .inr (hend (.header (normalAll ps)) fun ts => rfl)
    | close => exact .inr (hend .close fun ts => rfl)

/-- **A text is cut around a span in one way**, and one fragment frames the span. -/
theorem exists_fragments_span (ps qs : List Piece) :
    ∃ fs f gs, FramesSpan f ∧ ∀ x, ofPieces (ps ++ .span x :: qs) = fs ++ f x :: gs := by
  obtain ⟨ts, t, us, ht, hts⟩ := exists_tokens_span ps qs
  rcases exists_splitRun_span ht ts us with ⟨m, n, fs, h⟩ | ⟨r, fs, f, gs, hf, h⟩
  · refine ⟨[], _, fs, ⟨m, n, .inl rfl⟩, ?_⟩
    intro x
    rw [ofPieces, hts x, ofTokens, h x]
    exact consPlain_span m x n fs
  · refine ⟨consPlain r fs, f, gs, hf, ?_⟩
    intro x
    rw [ofPieces, hts x, ofTokens, h x]
    exact consPlain_append r fs (f x :: gs)

/-! ## Opacity -/

/-- A text without `}}` that does not end with a brace is an expression. -/
theorem isExpr_of_noClosing (h : ¬ closing <:+: e) (hlast : e.getLast? ≠ some (.char '}')) :
    IsExpr e :=
  isExpr_iff.2 ⟨splitClose_eq_none_iff.2 h, hlast⟩

/-- **Spans are opaque.** Two texts that differ in the expression of one span are cut into fragments
of the same kinds, equal but for the one that holds the span. Where the expressions have the same
words that one is equal too, exactly if the text before does not leave a span open, or there are no
words, or both expressions begin with a blank or neither does. -/
theorem segment_span_opaque (a e e' b : Text) (he : ¬ closing <:+: e)
    (hlast : e.getLast? ≠ some (.char '}')) (he' : ¬ closing <:+: e')
    (hlast' : e'.getLast? ≠ some (.char '}')) :
    let fs := segment (a ++ (span e).source ++ b)
    let gs := segment (a ++ (span e').source ++ b)
    fs.map kind = gs.map kind ∧
      (∃ (k : Nat) (o : Text), (∃ f, fs[k]? = some f ∧ normalSpan (o ++ e) <:+: f.value) ∧
        (∃ g, gs[k]? = some g ∧ normalSpan (o ++ e') <:+: g.value) ∧
        ∀ i, i ≠ k → fs[i]? = gs[i]?) ∧
      (collapse e = collapse e' →
        (fs = gs ↔ ¬ LeavesOpen a ∨ collapse e = [] ∨ startsBlank e = startsBlank e')) := by
  obtain ⟨ps, o, ho, hend, hlex⟩ := exists_lex_span a
  obtain ⟨fs, f, gs, hf, hseg⟩ := exists_fragments_span ps (lex b)
  have hcut (x : Text) (hx : ¬ closing <:+: x) (hlast : x.getLast? ≠ some (.char '}')) :
      segment (a ++ (span x).source ++ b) = fs ++ f (o ++ x) :: gs := by
    rw [segment_eq_ofPieces, List.append_assoc, hlex x b (isExpr_of_noClosing hx hlast), hseg]
  rw [hcut e he hlast, hcut e' he' hlast']
  refine ⟨?_, ⟨fs.length, o, ⟨f (o ++ e), by simp, hf.infix_value _⟩,
    ⟨f (o ++ e'), by simp, hf.infix_value _⟩, ?_⟩, ?_⟩
  · rw [List.map_append, List.map_append, List.map_cons, List.map_cons,
      hf.kind_eq (o ++ e) (o ++ e')]
  · intro i hi
    rcases Nat.lt_or_ge i fs.length with hlt | hge
    · rw [List.getElem?_append_left hlt, List.getElem?_append_left hlt]
    · obtain ⟨j, hj⟩ : ∃ j, i - fs.length = j + 1 := ⟨i - fs.length - 1, by omega⟩
      rw [List.getElem?_append_right hge, List.getElem?_append_right hge, hj,
        List.getElem?_cons_succ, List.getElem?_cons_succ]
  · -- The two lists are equal exactly if the framed spans are.
    intro hwords
    rw [List.append_right_inj, List.cons.injEq, and_iff_left rfl, hf.eq_iff]
    by_cases hopen : o = []
    · rw [hopen, List.nil_append, List.nil_append]
      exact iff_of_true hwords (.inl (ho.1 hopen))
    · have hleaves : LeavesOpen a := Classical.not_not.1 fun h => hopen (ho.2 h)
      have hnil : collapse e = [] ↔ words e = [] := collapse_eq_collapse_iff (t := [])
      rw [collapse_eq_collapse_iff,
        words_append_congr hopen hend (collapse_eq_collapse_iff.1 hwords), hnil]
      exact (or_iff_right fun h => h hleaves).symm

/-- A span inside a header: the blanks of its expression do not show. -/
theorem segment_span_opaque_header :
    collapse " a\n b ".toText = collapse "a b".toText ∧
      segment ("@if (".toText ++ (span " a\n b ".toText).source ++ ") \x7b c".toText) =
        segment ("@if (".toText ++ (span "a b".toText).source ++ ") \x7b c".toText) := by
  have hwords : collapse " a\n b ".toText = collapse "a b".toText := by decide
  have hclosed : ¬ LeavesOpen "@if (".toText := by
    have hlex : lex "@if (".toText = "@if (".toText.map point := by
      have h := lex_append_of_notMem (s := "@if (".toText) (by decide) []
      rwa [List.append_nil, lex_nil, List.append_nil] at h
    rw [LeavesOpen, hlex]
    rintro (h | h)
    · exact absurd (h.subset List.mem_cons_self) (by decide)
    · exact absurd h (by decide)
  obtain ⟨-, -, h⟩ := segment_span_opaque "@if (".toText " a\n b ".toText "a b".toText
    ") \x7b c".toText
    (fun h => absurd (h.subset List.mem_cons_self) (by decide)) (by decide)
    (fun h => absurd (h.subset List.mem_cons_self) (by decide)) (by decide)
  exact ⟨hwords, (h hwords).2 (.inl hclosed)⟩

/-- Expressions with the same words may show: behind a brace that the span takes in, a blank at the
start of the expression does. -/
theorem segment_span_behind_brace :
    ¬ ∀ a e e' b : Text, ¬ closing <:+: e → e.getLast? ≠ some (.char '}') → ¬ closing <:+: e' →
      e'.getLast? ≠ some (.char '}') → collapse e = collapse e' →
      segment (a ++ (span e).source ++ b) = segment (a ++ (span e').source ++ b) := by
  intro h
  have hcut := h "\x7b".toText " x".toText "x".toText []
    (fun h => absurd (h.subset List.mem_cons_self) (by decide)) (by decide)
    (fun h => absurd (h.subset List.mem_cons_self) (by decide)) (by decide) (by decide)
  exact absurd hcut (by decide +kernel)

end Fragment

end TemplateLayout
