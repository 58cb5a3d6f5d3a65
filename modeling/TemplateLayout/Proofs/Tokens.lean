import TemplateLayout.Fragment
import TemplateLayout.Proofs.Keywords

/-! # Laws of tokens
How pieces fall into tokens and fragments. Pieces are a run of plain text up to the first header or
closer, then that token, then the same again; this file states the one step and gives an equation
for each of its cases.

* `Token.takeBrace_eq_some_iff` — where the search for a block brace ends;
* `Token.IsRun`, `Token.IsStop` — a run of plain text, and what can end one;
* `Token.exists_run` — pieces are a run and a stop;
* `Fragment.ofPieces` — the fragments of pieces, with one equation for each stop.
-/

namespace TemplateLayout

open Text Piece

namespace Token

variable {p : Piece} {ps qs rs body rest : List Piece}

/-! ## The search for a block brace -/

/-- A piece is a **brace** if it is one of the two, outside every span. -/
def IsBrace (p : Piece) : Prop := p = .char '{' ∨ p = .char '}'

theorem takeBrace_cons (hp : ¬ IsBrace p) (ps : List Piece) :
    takeBrace (p :: ps) = (takeBrace ps).map fun (body, rest) => (p :: body, rest) := by
  have hopen : p ≠ .char '{' := fun h => hp (.inl h)
  have hclose : p ≠ .char '}' := fun h => hp (.inr h)
  rw [takeBrace]
  · rintro _ rfl
    exact absurd rfl hopen
  · exact hopen
  · exact hclose

/-- Pieces without braces are passed over. -/
theorem takeBrace_append (hps : ∀ p ∈ ps, ¬ IsBrace p) (qs : List Piece) :
    takeBrace (ps ++ qs) = (takeBrace qs).map fun (body, rest) => (ps ++ body, rest) := by
  induction ps with
  | nil => simp
  | cons p ps ih =>
    rw [List.cons_append, takeBrace_cons (hps p List.mem_cons_self),
      ih fun q hq => hps q (List.mem_cons_of_mem _ hq), Option.map_map]
    rfl

theorem takeBrace_brace (h : ps.head? ≠ some (.char '{')) :
    takeBrace (.char '{' :: ps) = some ([.char '{'], ps) := by
  rw [takeBrace]
  rintro r rfl
  exact h rfl

/-- **The block brace** is the first brace, and a second one does not follow it. -/
theorem takeBrace_eq_some_iff :
    takeBrace ps = some (body, rest) ↔
      ∃ init, (∀ p ∈ init, ¬ IsBrace p) ∧ body = init ++ [.char '{'] ∧
        ps = init ++ .char '{' :: rest ∧ rest.head? ≠ some (.char '{') := by
  constructor
  · intro h
    fun_induction takeBrace ps generalizing body rest with
    | case1 => simp at h
    | case2 => simp at h
    | case3 ps hps =>
      simp only [Option.some.injEq, Prod.mk.injEq] at h
      obtain ⟨rfl, rfl⟩ := h
      refine ⟨[], by simp, rfl, rfl, ?_⟩
      intro hhead
      obtain ⟨r, hr⟩ := List.head?_eq_some_iff.1 hhead
      exact hps r hr
    | case4 => simp at h
    | case5 p ps _ hopen hclose ih =>
      -- The piece is no brace, so it only stands before the one that is found.
      simp only [Option.map_eq_some_iff, Prod.mk.injEq] at h
      obtain ⟨⟨body', rest'⟩, hr, rfl, rfl⟩ := h
      obtain ⟨init, hinit, rfl, rfl, hhead⟩ := ih hr
      refine ⟨p :: init, ?_, rfl, rfl, hhead⟩
      rintro q hq
      rcases List.mem_cons.1 hq with rfl | hq
      · rintro (hb | hb)
        · exact hopen hb
        · exact hclose hb
      · exact hinit q hq
  · rintro ⟨init, hinit, rfl, rfl, hhead⟩
    rw [takeBrace_append hinit, takeBrace_brace hhead]
    rfl

/-- What follows does not change the block brace that was found. -/
theorem takeBrace_append_right (h : takeBrace ps = some (body, rest))
    (hqs : qs.head? ≠ some (.char '{')) : takeBrace (ps ++ qs) = some (body, rest ++ qs) := by
  obtain ⟨init, hinit, hbody, rfl, hhead⟩ := takeBrace_eq_some_iff.1 h
  refine takeBrace_eq_some_iff.2 ⟨init, hinit, hbody, by simp, ?_⟩
  cases rest with
  | nil => exact hqs
  | cons p rest => exact hhead

/-- Tidying spans moves no brace. -/
theorem takeBrace_map_tidy (ps : List Piece) :
    takeBrace (ps.map tidy) =
      (takeBrace ps).map fun (body, rest) => (body.map tidy, rest.map tidy) := by
  fun_induction takeBrace ps with
  | case1 => rfl
  | case2 => rfl
  | case3 ps hps =>
    rw [List.map_cons, tidy_point, takeBrace_brace]
    · rfl
    · -- A tidied piece is a brace only if it was one.
      intro h
      cases ps with
      | nil => simp at h
      | cons p ps =>
        cases p with
        | span e => simp [tidy] at h
        | point c =>
          have hc : Piece.point c = .char '{' := Option.some.inj h
          exact hps ps (by rw [hc])
  | case4 => rfl
  | case5 p ps _ hopen hclose ih =>
    have hp : ¬ IsBrace p.tidy := by
      cases p with
      | span e => rintro (h | h) <;> simp [tidy] at h
      | point c =>
        rintro (h | h)
        · exact hopen h
        · exact hclose h
    rw [List.map_cons, takeBrace_cons hp, ih]
    cases takeBrace ps with
    | none => rfl
    | some br => rfl

/-- A search that a brace ends in vain ends there whatever follows. -/
theorem takeBrace_append_of_mem (hnone : takeBrace ps = none) (hmem : p ∈ ps) (hp : IsBrace p)
    (qs : List Piece) : takeBrace (ps ++ qs) = none := by
  fun_induction takeBrace ps with
  | case1 => simp at hmem
  | case2 => rfl
  | case3 => simp at hnone
  | case4 => rfl
  | case5 q ps _ hopen hclose ih =>
    have hq : ¬ IsBrace q := by
      rintro (h | h)
      · exact hopen h
      · exact hclose h
    have hps : p ∈ ps := (List.mem_cons.1 hmem).resolve_left fun h => hq (h ▸ hp)
    rw [List.cons_append, takeBrace_cons hq, ih (Option.map_eq_none_iff.1 hnone) hps]
    rfl

/-! ## Headers -/

/-- A header is a keyword and, behind it, a block brace. -/
theorem takeHeader_eq_some_iff :
    takeHeader ps = some (body, rest) ↔
      Directive.startsWith Directive.headers ps = true ∧ takeBrace ps = some (body, rest) := by
  unfold takeHeader
  split <;> simp_all

/-- No header begins where no keyword stands or no block brace follows. -/
theorem takeHeader_eq_none_iff :
    takeHeader ps = none ↔
      (Directive.startsWith Directive.headers ps = true → takeBrace ps = none) := by
  unfold takeHeader
  split <;> simp_all

/-- **The shape of a header**: `@`, a keyword, no brace up to the block brace that ends it. -/
theorem takeHeader_eq_some_iff_exists :
    takeHeader ps = some (body, rest) ↔
      ∃ init, body = .char '@' :: (init ++ [.char '{']) ∧ ps = body ++ rest ∧
        Directive.leadingWord init ∈ Directive.headers ∧ (∀ p ∈ init, ¬ IsBrace p) ∧
        rest.head? ≠ some (.char '{') := by
  have hat : ¬ IsBrace (.char '@') := by rintro (h | h) <;> simp at h
  -- The brace is no part of a word, so the leading word ends before it.
  have hword (init qs : List Piece) :
      Directive.leadingWord (init ++ .char '{' :: qs) = Directive.leadingWord init :=
    Directive.leadingWord_append rfl init
  rw [takeHeader_eq_some_iff, Directive.startsWith_iff Directive.isKeywordList_headers,
    takeBrace_eq_some_iff]
  constructor
  · rintro ⟨⟨qs, rfl, hqs⟩, init, hinit, rfl, hps, hhead⟩
    cases init with
    | nil => simp at hps
    | cons p init =>
      rw [List.cons_append, List.cons.injEq] at hps
      obtain ⟨rfl, rfl⟩ := hps
      rw [hword] at hqs
      refine ⟨init, rfl, by simp, hqs, ?_, hhead⟩
      exact fun q hq => hinit q (List.mem_cons_of_mem _ hq)
  · rintro ⟨init, rfl, rfl, hqs, hinit, hhead⟩
    refine ⟨⟨init ++ .char '{' :: rest, by simp, by rwa [hword]⟩, .char '@' :: init, ?_, by simp,
      by simp, hhead⟩
    rintro p hp
    rcases List.mem_cons.1 hp with rfl | hp
    · exact hat
    · exact hinit p hp

/-- A header with its spans tidied is a header. -/
theorem takeHeader_map_tidy (h : takeHeader ps = some (body, rest)) :
    takeHeader (body.map tidy) = some (body.map tidy, []) := by
  obtain ⟨init, rfl, -, hword, hinit, -⟩ := takeHeader_eq_some_iff_exists.1 h
  refine takeHeader_eq_some_iff_exists.2 ⟨init.map tidy, by simp, by simp, ?_, ?_, by simp⟩
  · rwa [Directive.leadingWord_map_tidy]
  · intro p hp hbrace
    -- A tidied piece is a brace only if it was one.
    have hmem : p ∈ init := by
      rcases hbrace with rfl | rfl <;> exact point_mem_map_tidy.1 hp
    exact hinit p hmem hbrace

/-- A header begins with its `@`. -/
theorem takeHeader_of_ne (h : p ≠ .char '@') (ps : List Piece) : takeHeader (p :: ps) = none := by
  rw [takeHeader_eq_none_iff, Directive.startsWith_iff Directive.isKeywordList_headers]
  rintro ⟨qs, hqs, -⟩
  exact absurd (List.cons.inj hqs).1 h

/-! ## Runs -/

theorem ofPieces_nil : ofPieces [] = [] := by
  rw [ofPieces]

theorem ofPieces_of_takeHeader (h : takeHeader ps = some (body, rest)) :
    ofPieces ps = .header body :: ofPieces rest := by
  cases ps with
  | nil => simp [takeHeader, Directive.startsWith] at h
  | cons p ps =>
    rw [ofPieces]
    split
    · next h' =>
      rw [h, Option.some.injEq, Prod.mk.injEq] at h'
      rw [h'.1, h'.2]
    · next h' =>
      rw [h] at h'
      exact absurd h' (by simp)

theorem ofPieces_cons (h : takeHeader (p :: ps) = none) :
    ofPieces (p :: ps) = (if p = .char '}' then .close else .plain p) :: ofPieces ps := by
  rw [ofPieces]
  split
  · next h' =>
    rw [h] at h'
    exact absurd h' (by simp)
  · rfl

theorem ofPieces_close (ps : List Piece) :
    ofPieces (.char '}' :: ps) = .close :: ofPieces ps := by
  rw [ofPieces_cons (takeHeader_of_ne (by simp) ps), if_pos rfl]

/-- A **run** of plain text before the pieces `qs`: no closer is in it and no header begins in
it. -/
structure IsRun (rs qs : List Piece) : Prop where
  /-- No closer is in the run. -/
  noCloser : .char '}' ∉ rs
  /-- No header begins in the run. -/
  noHeader : ∀ ps, ps <:+ rs → ps ≠ [] → takeHeader (ps ++ qs) = none

/-- Without its first piece a run is a run. -/
theorem IsRun.tail (h : IsRun (p :: rs) qs) : IsRun rs qs where
  noCloser := fun hmem => h.noCloser (List.mem_cons_of_mem _ hmem)
  noHeader := fun ps hps => h.noHeader ps (hps.trans (List.suffix_cons p rs))

/-- Two runs in a row are a run. -/
theorem IsRun.append (h : IsRun ps (rs ++ qs)) (h' : IsRun rs qs) : IsRun (ps ++ rs) qs where
  noCloser := fun hmem => (List.mem_append.1 hmem).elim h.noCloser h'.noCloser
  noHeader := by
    rintro ms ⟨l, hl⟩ hne
    rcases List.append_eq_append_iff.1 hl with ⟨a, rfl, rfl⟩ | ⟨a, rfl, rfl⟩
    · by_cases ha : a = []
      · subst ha
        exact h'.noHeader rs List.suffix_rfl (by simpa using hne)
      · rw [List.append_assoc]
        exact h.noHeader a (List.suffix_append l a) ha
    · exact h'.noHeader ms (List.suffix_append a ms) hne

/-- The tokens of a run are its pieces. -/
theorem IsRun.ofPieces_append (h : IsRun rs qs) :
    ofPieces (rs ++ qs) = rs.map .plain ++ ofPieces qs := by
  induction rs with
  | nil => rfl
  | cons p rs ih =>
    have hnone : takeHeader (p :: (rs ++ qs)) = none :=
      h.noHeader (p :: rs) List.suffix_rfl (by simp)
    have hp : p ≠ .char '}' := fun hp => h.noCloser (hp ▸ List.mem_cons_self)
    rw [List.cons_append, ofPieces_cons hnone, if_neg hp, ih h.tail]
    rfl

/-- What can **stop** a run: the end, a closer, or a header. -/
inductive IsStop : List Piece → Prop where
  /-- The end of the text. -/
  | nil : IsStop []
  /-- A closer. -/
  | close (ps : List Piece) : IsStop (.char '}' :: ps)
  /-- A header. -/
  | header {ps body rest : List Piece} (h : takeHeader ps = some (body, rest)) : IsStop ps

/-- A stop begins with no brace that opens. -/
theorem IsStop.head?_ne (h : IsStop ps) : ps.head? ≠ some (.char '{') := by
  cases h with
  | nil => simp
  | close ps => simp
  | header h =>
    obtain ⟨init, rfl, rfl, -⟩ := takeHeader_eq_some_iff_exists.1 h
    simp

/-- A stop begins with no word character. -/
theorem IsStop.atBoundary (h : IsStop ps) : Directive.atBoundary ps = true := by
  cases h with
  | nil => rfl
  | close ps => rfl
  | header h =>
    obtain ⟨init, rfl, rfl, -⟩ := takeHeader_eq_some_iff_exists.1 h
    rfl

/-- **Pieces are a run and a stop.** -/
theorem exists_run (ps : List Piece) : ∃ rs qs, ps = rs ++ qs ∧ IsRun rs qs ∧ IsStop qs := by
  induction ps with
  | nil => exact ⟨[], [], rfl, ⟨by simp, by simp⟩, .nil⟩
  | cons p ps ih =>
    -- The run grows to the left until a piece stops it.
    obtain ⟨rs, qs, rfl, hrun, hstop⟩ := ih
    cases hhead : takeHeader (p :: (rs ++ qs)) with
    | some br => exact ⟨[], p :: (rs ++ qs), rfl, ⟨by simp, by simp⟩, .header hhead⟩
    | none =>
      by_cases hp : p = .char '}'
      · subst hp
        exact ⟨[], _, rfl, ⟨by simp, by simp⟩, .close _⟩
      · refine ⟨p :: rs, qs, rfl, ⟨?_, ?_⟩, hstop⟩
        · intro hmem
          exact (List.mem_cons.1 hmem).elim (fun h => hp h.symm) hrun.noCloser
        · intro ps' hsuf hne
          rcases List.suffix_cons_iff.1 hsuf with rfl | hsuf
          · exact hhead
          · exact hrun.noHeader ps' hsuf hne

/-- **Induction along the fragments**: pieces are nothing, or begin with a closer, a header or a
run. -/
theorem pieces_induction {motive : List Piece → Prop} (nil : motive [])
    (close : ∀ ps, motive ps → motive (.char '}' :: ps))
    (header : ∀ ps body rest, takeHeader ps = some (body, rest) → motive rest → motive ps)
    (run : ∀ rs qs, IsRun rs qs → IsStop qs → motive qs → motive (rs ++ qs))
    (ps : List Piece) : motive ps := by
  generalize hn : ps.length = n
  induction n using Nat.strongRecOn generalizing ps with
  | ind n ih =>
    -- What stops the run is nothing, or gives a closer or a header and something shorter.
    obtain ⟨rs, qs, rfl, hrun, hstop⟩ := exists_run ps
    refine run rs qs hrun hstop ?_
    have hlen : qs.length ≤ n := by
      rw [← hn, List.length_append]
      omega
    cases hstop with
    | nil => exact nil
    | close ps =>
      rw [List.length_cons] at hlen
      exact close ps (ih ps.length (by omega) ps rfl)
    | @header _ body rest h =>
      have hlt := length_of_takeHeader h
      exact header qs body rest h (ih rest.length (by omega) rest rfl)

end Token

/-! ## Fragments of pieces -/

namespace Fragment

open Token

variable {ps qs rs body rest : List Piece}

/-- The **fragments of pieces**. -/
def ofPieces (ps : List Piece) : List Fragment := ofTokens (Token.ofPieces ps)

theorem segment_eq_ofPieces (s : Text) : segment s = ofPieces (lex s) := rfl

theorem ofTokens_header (ps : List Piece) (ts : List Token) :
    ofTokens (.header ps :: ts) = .header (normalAll ps) :: ofTokens ts := rfl

theorem ofTokens_close (ts : List Token) : ofTokens (.close :: ts) = .close :: ofTokens ts := rfl

theorem splitRun_plain (p : Piece) (ts : List Token) :
    splitRun (.plain p :: ts) = (p.normal ++ (splitRun ts).1, (splitRun ts).2) := rfl

theorem splitRun_header (ps : List Piece) (ts : List Token) :
    splitRun (.header ps :: ts) = ([], .header (normalAll ps) :: ofTokens ts) := rfl

theorem splitRun_close (ts : List Token) :
    splitRun (.close :: ts) = ([], .close :: ofTokens ts) := rfl

@[simp] theorem ofPieces_nil : ofPieces [] = [] := by
  rw [ofPieces, Token.ofPieces_nil]
  rfl

theorem ofPieces_close (ps : List Piece) : ofPieces (.char '}' :: ps) = .close :: ofPieces ps := by
  rw [ofPieces, Token.ofPieces_close, ofTokens_close]
  rfl

theorem ofPieces_header (h : takeHeader ps = some (body, rest)) :
    ofPieces ps = .header (normalAll body) :: ofPieces rest := by
  rw [ofPieces, ofPieces_of_takeHeader h, ofTokens_header]
  rfl

/-- Plain tokens lengthen the run that touches the start. -/
theorem splitRun_map_plain (rs : List Piece) (ts : List Token) :
    splitRun (rs.map .plain ++ ts) = (normalAll rs ++ (splitRun ts).1, (splitRun ts).2) := by
  induction rs with
  | nil => rfl
  | cons p rs ih =>
    rw [List.map_cons, List.cons_append, splitRun, ih, normalAll_cons, List.append_assoc]

/-- At a stop no run touches the start. -/
theorem splitRun_of_isStop (h : IsStop ps) :
    splitRun (Token.ofPieces ps) = ([], ofPieces ps) := by
  cases h with
  | nil => rw [ofPieces, Token.ofPieces_nil]; rfl
  | close ps => rw [ofPieces, Token.ofPieces_close]; rfl
  | header h => rw [ofPieces, ofPieces_of_takeHeader h]; rfl

/-- **A run is one fragment**, or none where it is blank. -/
theorem ofPieces_append_of_isRun (hrun : IsRun rs qs) (hstop : IsStop qs) :
    ofPieces (rs ++ qs) = consPlain (normalAll rs) (ofPieces qs) := by
  rw [ofPieces, hrun.ofPieces_append, ofTokens, splitRun_map_plain, splitRun_of_isStop hstop]
  simp

/-- A blank run leaves no fragment. -/
theorem consPlain_of_allBlank {s : Text} (hs : allBlank s = true) (fs : List Fragment) :
    consPlain s fs = fs := by
  rw [consPlain, trim_eq_nil_iff.2 hs, List.isEmpty_nil, if_pos rfl]

/-- A run that is not blank is one fragment. -/
theorem consPlain_of_not_allBlank {s : Text} (hs : allBlank s = false) (fs : List Fragment) :
    consPlain s fs = .plain (trim s) :: fs := by
  have hne : trim s ≠ [] := by
    rw [ne_eq, trim_eq_nil_iff, hs]
    exact Bool.false_ne_true
  rw [consPlain, if_neg (by simpa using hne)]

theorem consPlain_append (r : Text) (fs gs : List Fragment) :
    consPlain r (fs ++ gs) = consPlain r fs ++ gs := by
  unfold consPlain
  split <;> rfl

/-- A closer divides the fragments of tokens. -/
theorem ofTokens_append_close (ts us : List Token) :
    ofTokens (ts ++ .close :: us) = ofTokens ts ++ .close :: ofTokens us := by
  -- The run that touches the start is the same with the closer and without it.
  have hcons {ts : List Token} (h : splitRun (ts ++ .close :: us) =
      ((splitRun ts).1, (splitRun ts).2 ++ .close :: ofTokens us)) :
      ofTokens (ts ++ .close :: us) = ofTokens ts ++ .close :: ofTokens us := by
    rw [ofTokens, h]
    exact consPlain_append ..
  refine hcons ?_
  induction ts with
  | nil => rfl
  | cons t ts ih =>
    cases t with
    | plain p => rw [List.cons_append, splitRun_plain, splitRun_plain, ih]
    | header ps => rw [List.cons_append, splitRun_header, splitRun_header, hcons ih]; rfl
    | close => rw [List.cons_append, splitRun_close, splitRun_close, hcons ih]; rfl

end Fragment

end TemplateLayout
