import TemplateLayout.Proofs.Tokens

/-! # Cutting is undone by joining
The fragments of a text, written one after the other with blanks between them, are cut into the
same fragments again. The reason is a property of lists of fragments that cutting establishes: what
a fragment says about those after it. A plain run that holds a keyword is not followed by a header,
which would have been part of it, and after an open `{{` there is no `}}` any more.

* `Fragment.Settled` — the property; `Fragment.settled_segment` — cutting establishes it;
* `Fragment.Spelled` — a text that writes fragments with blanks between them;
* `Fragment.segment_of_spelled` — settled fragments are read back from every such text;
* `Fragment.segment_intercalate` — so are any fragments in a row of any text.
-/

namespace TemplateLayout.Fragment

open Text Piece Token

variable {s t u v b sep : Text} {f : Fragment} {fs gs : List Fragment} {ps qs rs : List Piece}

/-! ## Settled fragments -/

/-- Whether fragments begin with a header. -/
def startsHeader : List Fragment → Bool
  | .header _ :: _ => true
  | _ => false

/-- Whether fragments begin with plain text. -/
def startsPlain : List Fragment → Bool
  | .plain _ :: _ => true
  | _ => false

/-- A text is **one header**, from its `@` to its block brace. -/
def IsHeader (v : Text) : Prop := takeHeader (lex v) = some (lex v, [])

/-- The text `v` is **plain before** the fragments `fs`. -/
structure IsPlain (v : Text) (fs : List Fragment) : Prop where
  /-- There is something to see. -/
  ne_nil : v ≠ []
  /-- No blank stands at an end. -/
  trimmed : trim v = v
  /-- Every span is in normal form. -/
  normal : Interpolation.normalize v = v
  /-- No closer is in it. -/
  noCloser : .char '}' ∉ lex v
  /-- No keyword in it has a block brace behind it. -/
  noHeader : ∀ ps, ps <:+ lex v → Directive.startsWith Directive.headers ps = true →
    takeBrace ps = none
  /-- A keyword does not run on into the brace of a header that follows. -/
  noJoin : startsHeader fs = true → ∀ ps, ps <:+ lex v →
    Directive.startsWith Directive.headers ps = true → .char '{' ∈ ps
  /-- No plain text follows. -/
  separate : startsPlain fs = false
  /-- An open `{{` is not closed by what follows. -/
  noSpan : IsOpen (lex v) → ∀ f ∈ fs, splitClose f.value = none

/-- Fragments are **settled** if each is what it is in view of those after it. -/
def Settled : List Fragment → Prop
  | [] => True
  | .close :: fs => Settled fs
  | .header v :: fs => (IsHeader v ∧ Interpolation.normalize v = v) ∧ Settled fs
  | .plain v :: fs => IsPlain v fs ∧ Settled fs

theorem Settled.tail (h : Settled (f :: fs)) : Settled fs := by
  cases f with
  | close => exact h
  | header v => exact h.2
  | plain v => exact h.2

/-- The last part of settled fragments is settled. -/
theorem Settled.right (h : Settled (fs ++ gs)) : Settled gs := by
  induction fs with
  | nil => exact h
  | cons f fs ih => exact ih h.tail

/-- Plain text stays plain before fewer fragments. -/
theorem IsPlain.left (h : IsPlain v (fs ++ gs)) : IsPlain v fs where
  ne_nil := h.ne_nil
  trimmed := h.trimmed
  normal := h.normal
  noCloser := h.noCloser
  noHeader := h.noHeader
  noJoin := by
    intro hfs
    -- Fewer fragments begin as the fragments do, unless there are none.
    refine h.noJoin ?_
    cases fs with
    | nil => exact absurd hfs Bool.false_ne_true
    | cons f fs => cases f <;> exact hfs
  separate := by
    cases fs with
    | nil => rfl
    | cons f fs => cases f <;> exact h.separate
  noSpan := fun ho f hf => h.noSpan ho f (List.mem_append_left _ hf)

/-- The first part of settled fragments is settled. -/
theorem Settled.left (h : Settled (fs ++ gs)) : Settled fs := by
  induction fs with
  | nil => trivial
  | cons f fs ih =>
    cases f with
    | close => exact ih h
    | header v => exact ⟨h.1, ih h.2⟩
    | plain v => exact ⟨h.1.left, ih h.2⟩

/-- Settled fragments in a row are settled. -/
theorem Settled.of_isInfix (h : Settled gs) (hfs : fs <:+: gs) : Settled fs := by
  obtain ⟨l, r, rfl⟩ := hfs
  exact h.left.right

/-! ## Cutting settles -/

/-- Blanks that pieces in normal form begin with are pieces of their own. -/
theorem exists_map_point_append (hb : allBlank b = true) (h : normalAll ps = b ++ t) :
    ∃ qs, ps = b.map .point ++ qs ∧ normalAll qs = t := by
  induction b generalizing ps with
  | nil => exact ⟨ps, rfl, h⟩
  | cons c b ih =>
    obtain ⟨hc, hb'⟩ := Bool.and_eq_true_iff.1 hb
    cases ps with
    | nil => simp at h
    | cons p ps =>
      cases p with
      | span e =>
        -- A span begins with a brace, which is no blank.
        obtain rfl : CodePoint.char '{' = c := (List.cons.inj h).1
        exact absurd hc (by decide)
      | point d =>
        obtain ⟨rfl, h'⟩ := List.cons.inj h
        obtain ⟨qs, rfl, hqs⟩ := ih hb' h'
        exact ⟨qs, rfl, hqs⟩

/-- Blanks that pieces in normal form end with are pieces of their own. -/
theorem exists_append_map_point (hb : allBlank b = true) (h : normalAll ps = t ++ b) :
    ∃ qs, ps = qs ++ b.map .point ∧ normalAll qs = t := by
  generalize hr : b.reverse = r
  induction r generalizing b ps with
  | nil =>
    obtain rfl := List.reverse_eq_nil_iff.1 hr
    exact ⟨ps, by simp, by simpa using h⟩
  | cons c r ih =>
    obtain rfl : b = r.reverse ++ [c] := by rw [← List.reverse_reverse b, hr, List.reverse_cons]
    rw [allBlank_append, Bool.and_eq_true] at hb
    have hc : isBlank c = true := by simpa using hb.2
    rcases List.eq_nil_or_concat ps with rfl | ⟨ps, p, rfl⟩
    · simp at h
    · rw [List.concat_eq_append, normalAll_append, ← List.append_assoc] at h
      cases p with
      | span e =>
        -- A span ends with a brace, which is no blank.
        have hlast : (normalAll ps ++ normalAll [.span e]).getLast? = some (.char '}') := by
          rw [normalAll_cons, normalAll_nil, List.append_nil, normal, normalSpan,
            ← List.append_assoc, List.getLast?_append]
          rfl
        rw [h, List.getLast?_append, List.getLast?_singleton, Option.some_or] at hlast
        rw [Option.some.inj hlast] at hc
        exact absurd hc (by decide)
      | point d =>
        obtain ⟨hps, hcd⟩ := List.append_inj' h rfl
        obtain rfl : d = c := by simpa [normal] using hcd
        obtain ⟨qs, rfl, hqs⟩ := ih hb.1 hps (List.reverse_reverse r)
        exact ⟨qs, by simp, hqs⟩

/-- Trimming pieces in normal form takes away blanks between their two ends and the trimmed ones. -/
theorem exists_trim_pieces (ps : List Piece) :
    ∃ b qs b', allBlank b = true ∧ allBlank b' = true ∧
      ps = b.map .point ++ (qs ++ b'.map .point) ∧ normalAll qs = trim (normalAll ps) := by
  obtain ⟨b, b', hb, hb', h⟩ := exists_trim (normalAll ps)
  rw [List.append_assoc] at h
  obtain ⟨qs, rfl, hqs⟩ := exists_map_point_append hb h
  obtain ⟨rs, rfl, hrs⟩ := exists_append_map_point hb' hqs
  exact ⟨b, rs, b', hb, hb', rfl, hrs⟩

/-- Cutting characters without `}}` gives fragments without `}}`. -/
theorem splitClose_value_of_mem_ofPieces (hspan : ∀ e, .span e ∉ ps)
    (hnone : splitClose (sourceAll ps) = none) :
    ∀ f ∈ ofPieces ps, splitClose f.value = none := by
  induction ps using pieces_induction with
  | nil => simp
  | close ps ih =>
    intro f hf
    rw [ofPieces_close] at hf
    rcases List.mem_cons.1 hf with rfl | hf
    · rfl
    · exact ih (fun e he => hspan e (List.mem_cons_of_mem _ he)) (splitClose_tail_none hnone) f hf
  | header ps body rest h ih =>
    intro f hf
    obtain ⟨-, -, rfl, -⟩ := takeHeader_eq_some_iff_exists.1 h
    rw [sourceAll_append] at hnone
    rw [ofPieces_header h] at hf
    rcases List.mem_cons.1 hf with rfl | hf
    · rw [value, normalAll_eq_sourceAll fun e he => hspan e (List.mem_append_left _ he)]
      exact splitClose_left_none hnone
    · exact ih (fun e he => hspan e (List.mem_append_right _ he)) (splitClose_right_none hnone) f hf
  | run rs qs hrun hstop ih =>
    intro f hf
    rw [sourceAll_append] at hnone
    have ih := ih (fun e he => hspan e (List.mem_append_right _ he)) (splitClose_right_none hnone)
    rw [ofPieces_append_of_isRun hrun hstop, consPlain] at hf
    split at hf
    · exact ih f hf
    · rcases List.mem_cons.1 hf with rfl | hf
      · obtain ⟨b, b', -, -, hrs⟩ := exists_trim (normalAll rs)
        have hnone := splitClose_left_none hnone
        rw [← normalAll_eq_sourceAll fun e he => hspan e (List.mem_append_left _ he), hrs] at hnone
        exact splitClose_right_none (splitClose_left_none hnone)
      · exact ih f hf

/-- A header that is cut out is one header, in normal form. -/
theorem isHeader_of_takeHeader {body rest : List Piece} (hps : Lexed ps)
    (h : takeHeader ps = some (body, rest)) :
    IsHeader (normalAll body) ∧ Interpolation.normalize (normalAll body) = normalAll body := by
  obtain ⟨-, -, rfl, -⟩ := takeHeader_eq_some_iff_exists.1 h
  refine ⟨?_, hps.left.normalize_normalAll⟩
  rw [IsHeader, hps.left.lex_normalAll]
  exact takeHeader_map_tidy h

/-- What a stop begins with is not plain text. -/
theorem startsPlain_of_isStop (h : IsStop qs) : startsPlain (ofPieces qs) = false := by
  cases h with
  | nil => rw [ofPieces_nil]; rfl
  | close ps => rw [ofPieces_close]; rfl
  | header h => rw [ofPieces_header h]; rfl

/-- Where fragments begin with a header, so do the pieces. -/
theorem takeBrace_ne_none_of_startsHeader (hstop : IsStop qs)
    (h : startsHeader (ofPieces qs) = true) : takeBrace qs ≠ none := by
  cases hstop with
  | nil => rw [ofPieces_nil] at h; exact absurd h Bool.false_ne_true
  | close ps => rw [ofPieces_close] at h; exact absurd h Bool.false_ne_true
  | header hhead => rw [(takeHeader_eq_some_iff.1 hhead).2]; simp

/-- No brace is blank. -/
theorem not_isBrace_of_mem_map_point {p : Piece} (hb : allBlank b = true) (hp : p ∈ b.map .point) :
    ¬ IsBrace p := by
  obtain ⟨c, hc, rfl⟩ := List.mem_map.1 hp
  have hblank : isBlank c = true := List.all_eq_true.1 hb c hc
  rintro (h | h) <;> rw [point.inj h] at hblank <;> exact absurd hblank (by decide)

/-- A keyword in a run finds no block brace, neither in the run nor in the header that stops it. -/
theorem takeBrace_of_suffix_run (hrun : IsRun (rs ++ b.map .point) qs) (hstop : IsStop qs)
    (hb : allBlank b = true) (hsuf : ps <:+ rs)
    (hkey : Directive.startsWith Directive.headers ps = true) :
    takeBrace ps = none ∧ (takeBrace qs ≠ none → .char '{' ∈ ps) := by
  have hne : ps ≠ [] := by
    rintro rfl
    exact absurd hkey Bool.false_ne_true
  have hbound := Directive.atBoundary_map_point_append hb hstop.atBoundary
  -- In its place the keyword begins no header, so there is no block brace from there on.
  have hnone : takeBrace (ps ++ (b.map .point ++ qs)) = none := by
    have hhead := hrun.noHeader (ps ++ b.map .point)
      (by obtain ⟨l, rfl⟩ := hsuf; exact ⟨l, by simp⟩) (by simp [hne])
    rw [List.append_assoc] at hhead
    refine takeHeader_eq_none_iff.1 hhead ?_
    rwa [Directive.startsWith_append Directive.isKeywordList_headers hbound hne]
  constructor
  · cases hps : takeBrace ps with
    | none => rfl
    | some br =>
      have hhead : (b.map Piece.point ++ qs).head? ≠ some (.char '{') := by
        cases b with
        | nil => exact hstop.head?_ne
        | cons c b =>
          intro h
          exact not_isBrace_of_mem_map_point hb List.mem_cons_self (.inl (Option.some.inj h))
      rw [takeBrace_append_right hps hhead] at hnone
      exact absurd hnone (by simp)
  · intro hqs
    by_cases hmem : .char '{' ∈ ps
    · exact hmem
    · -- Without a brace on the way the search would reach that of the header.
      refine absurd hnone ?_
      have hbrace : ∀ p ∈ ps ++ b.map .point, ¬ IsBrace p := by
        intro p hp
        rcases List.mem_append.1 hp with hp | hp
        · rintro (rfl | rfl)
          · exact hmem hp
          · exact hrun.noCloser (List.mem_append_left _ (hsuf.subset hp))
        · exact not_isBrace_of_mem_map_point hb hp
      rw [← List.append_assoc, takeBrace_append hbrace, Option.map_eq_none_iff]
      exact hqs

/-- A run that is not blank is plain before what stops it. -/
theorem isPlain_of_isRun (hlex : Lexed (rs ++ qs)) (hrun : IsRun rs qs) (hstop : IsStop qs)
    (hrs : allBlank (normalAll rs) = false) :
    IsPlain (trim (normalAll rs)) (ofPieces qs) := by
  obtain ⟨b, ms, b', hb, hb', rfl, hms⟩ := exists_trim_pieces rs
  have hlexms : Lexed ms := hlex.left.right.left
  have hlexv : lex (trim (normalAll (b.map .point ++ (ms ++ b'.map .point)))) = ms.map tidy := by
    rw [← hms, hlexms.lex_normalAll]
  -- Without the blanks before it, what is left is a run too.
  have hrun' : IsRun (ms ++ b'.map .point) qs :=
    ⟨fun h => hrun.noCloser (List.mem_append_right _ h),
      fun ps hps => hrun.noHeader ps (hps.trans (List.suffix_append _ _))⟩
  have hkey (ps : List Piece) (hsuf : ps <:+ ms.map tidy)
      (hps : Directive.startsWith Directive.headers ps = true) :
      takeBrace ps = none ∧ (takeBrace qs ≠ none → .char '{' ∈ ps) := by
    obtain ⟨l, hl⟩ := hsuf
    obtain ⟨l', ps', rfl, -, rfl⟩ := List.map_eq_append_iff.1 hl.symm
    rw [Directive.startsWith_map_tidy Directive.isKeywordList_headers] at hps
    obtain ⟨hnone, hmem⟩ := takeBrace_of_suffix_run hrun' hstop hb' (List.suffix_append l' ps') hps
    refine ⟨?_, fun hqs => point_mem_map_tidy.2 (hmem hqs)⟩
    rw [takeBrace_map_tidy, hnone]
    rfl
  refine ⟨?_, ?_, ?_, ?_, ?_, ?_, ?_, ?_⟩
  · rw [ne_eq, trim_eq_nil_iff, hrs]
    exact Bool.false_ne_true
  · exact trim_eq_self (startsBlank_trim _) (endsBlank_trim _)
  · rw [← hms, hlexms.normalize_normalAll]
  · rw [hlexv, point_mem_map_tidy]
    exact fun h => hrun'.noCloser (List.mem_append_left _ h)
  · intro ps hsuf hps
    rw [hlexv] at hsuf
    exact (hkey ps hsuf hps).1
  · intro hhead ps hsuf hps
    rw [hlexv] at hsuf
    exact (hkey ps hsuf hps).2 (takeBrace_ne_none_of_startsHeader hstop hhead)
  · exact startsPlain_of_isStop hstop
  · -- After an open `{{` only characters follow, and no `}}` among them.
    intro hopen
    rw [hlexv] at hopen
    obtain ⟨l, r, hms'⟩ := isOpen_of_map_tidy hopen
    have hsplit : Lexed (.char '{' :: .char '{' :: (r ++ b'.map .point ++ qs)) := by
      have h := hlex
      rw [← hms'] at h
      simp only [List.append_assoc, List.cons_append, List.nil_append] at h
      simpa using h.right.right
    obtain ⟨x, hx, hnone⟩ := hsplit.opened_inv
    obtain ⟨x₁, x₂, rfl, -, rfl⟩ := List.map_eq_append_iff.1 hx.symm
    refine splitClose_value_of_mem_ofPieces (by simp) ?_
    rw [sourceAll_map_point]
    exact splitClose_right_none hnone

/-- The fragments of pieces that are read back are settled. -/
theorem settled_ofPieces (hps : Lexed ps) : Settled (ofPieces ps) := by
  induction ps using pieces_induction with
  | nil => rw [ofPieces_nil]; trivial
  | close ps ih =>
    rw [ofPieces_close]
    exact ih hps.tail
  | header ps body rest h ih =>
    rw [ofPieces_header h]
    refine ⟨isHeader_of_takeHeader hps h, ih ?_⟩
    obtain ⟨-, -, rfl, -⟩ := takeHeader_eq_some_iff_exists.1 h
    exact hps.right
  | run rs qs hrun hstop ih =>
    rw [ofPieces_append_of_isRun hrun hstop]
    cases hrs : allBlank (normalAll rs) with
    | true =>
      rw [consPlain_of_allBlank hrs]
      exact ih hps.right
    | false =>
      rw [consPlain_of_not_allBlank hrs]
      exact ⟨isPlain_of_isRun hps hrun hstop hrs, ih hps.right⟩

/-- **Cutting settles**: the fragments of any text are settled. -/
theorem settled_segment (s : Text) : Settled (segment s) :=
  settled_ofPieces (lexed_lex s)

/-! ## Texts that write fragments -/

/-- A text **spells** a fragment. A header may be written with any spans that have its normal
form. -/
inductive Spells : Text → Fragment → Prop where
  /-- Plain text is written as it is. -/
  | plain (v : Text) : Spells v (.plain v)
  /-- A header is written as one header. -/
  | header {u : Text} (hu : IsHeader u) : Spells u (.header (Interpolation.normalize u))
  /-- A closer is its brace. -/
  | close : Spells [.char '}'] .close

/-- A text **spells fragments** in order, with blanks between each two and perhaps at the ends. -/
inductive Spelled : List Fragment → Text → Prop where
  /-- Blanks spell nothing. -/
  | nil {b : Text} (hb : allBlank b = true) : Spelled [] b
  /-- Blanks, a fragment, and the others behind a blank. -/
  | cons {b u t : Text} {f : Fragment} {fs : List Fragment} (hb : allBlank b = true)
      (hu : Spells u f) (ht : Spelled fs t) (hblank : fs ≠ [] → startsBlank t = true) :
      Spelled (f :: fs) (b ++ (u ++ t))

/-- Blanks may stand before a text that spells fragments. -/
theorem Spelled.blank_append (hb : allBlank b = true) (h : Spelled fs t) : Spelled fs (b ++ t) := by
  cases h with
  | nil hb' => exact .nil (by rw [allBlank_append, hb, hb', Bool.and_self])
  | cons hb' hu ht hblank =>
    rw [← List.append_assoc]
    exact .cons (by rw [allBlank_append, hb, hb', Bool.and_self]) hu ht hblank

/-- What follows a fragment is empty or begins with a blank. -/
theorem Spelled.eq_nil_or_startsBlank (h : Spelled fs t)
    (hblank : fs ≠ [] → startsBlank t = true) : t = [] ∨ startsBlank t = true := by
  cases h with
  | nil hb =>
    by_cases hne : t = []
    · exact .inl hne
    · exact .inr (startsBlank_of_allBlank hb hne)
  | cons => exact .inr (hblank (by simp))

/-- A character at the start of what follows a fragment is blank. -/
theorem head?_ne_of_startsBlank {c : CodePoint} (h : t = [] ∨ startsBlank t = true)
    (hc : isBlank c = false) : t.head? ≠ some c := by
  intro hhead
  rcases h with rfl | h
  · simp at hhead
  · rw [startsBlank, hhead, Option.any_some, hc] at h
    exact absurd h Bool.false_ne_true

/-- A header holds no open `{{`. -/
theorem IsHeader.not_isOpen (h : IsHeader u) : ¬ IsOpen (lex u) := by
  obtain ⟨init, hu, -, -, hinit, -⟩ := takeHeader_eq_some_iff_exists.1 h
  rintro ⟨l, r, hopen⟩
  -- Its only brace that opens is the last piece.
  have hcount : (lex u).count (.char '{') = 1 := by
    have hzero : init.count (.char '{') = 0 :=
      List.count_eq_zero_of_not_mem fun hmem => hinit _ hmem (.inl rfl)
    rw [hu, List.count_cons_of_ne (by simp), List.count_append, hzero]
    rfl
  rw [← hopen, List.append_assoc, List.count_append, List.count_append] at hcount
  have htwo : [Piece.char '{', .char '{'].count (.char '{') = 2 := by decide
  omega

/-- The pieces of a header and of what follows it. -/
theorem IsHeader.lex_append (h : IsHeader u) (ht : t = [] ∨ startsBlank t = true) :
    lex (u ++ t) = lex u ++ lex t :=
  Piece.lex_append (head?_ne_of_startsBlank ht isBlank_openBrace)
    (head?_ne_of_startsBlank ht isBlank_closeBrace) fun ho => absurd ho h.not_isOpen

/-- The first piece of what follows a fragment is no brace. -/
theorem head?_lex_ne (ht : t = [] ∨ startsBlank t = true) :
    (lex t).head? ≠ some (.char '{') := by
  rcases ht with rfl | ht
  · simp
  · cases t with
    | nil => exact absurd ht Bool.false_ne_true
    | cons c t =>
      have hc : c ≠ .char '{' := by
        rintro rfl
        exact absurd (show isBlank (.char '{') = true from ht) (by decide)
      rw [lex_cons fun h => absurd h hc]
      simpa using hc

/-- A header is cut off from what follows it. -/
theorem IsHeader.takeHeader_append (h : IsHeader u) (ht : t = [] ∨ startsBlank t = true) :
    takeHeader (lex (u ++ t)) = some (lex u, lex t) := by
  obtain ⟨init, hu, -, hword, hinit, -⟩ := takeHeader_eq_some_iff_exists.1 h
  rw [h.lex_append ht]
  exact takeHeader_eq_some_iff_exists.2 ⟨init, hu, rfl, hword, hinit, head?_lex_ne ht⟩

/-- Blanks have no `}}`, and none that a brace behind them could complete. -/
theorem notMem_of_allBlank {c : CodePoint} (hb : allBlank b = true) (hc : isBlank c = false) :
    c ∉ b := by
  intro hmem
  rw [List.all_eq_true.1 hb c hmem] at hc
  exact absurd hc.symm Bool.false_ne_true

/-- A text that spells fragments without `}}` has none. -/
theorem Spelled.splitClose_none (h : Spelled fs t)
    (hfs : ∀ f ∈ fs, splitClose f.value = none) : splitClose t = none := by
  induction h with
  | nil hb => exact splitClose_of_notMem (notMem_of_allBlank hb isBlank_closeBrace)
  | @cons b u t f fs hb hu ht hblank ih =>
    have hu' : splitClose u = none := by
      have hf := hfs f List.mem_cons_self
      cases hu with
      | plain v => exact hf
      | header hu => exact splitClose_of_normalize hf
      | close => rfl
    have hhead := head?_ne_of_startsBlank (c := .char '}') (ht.eq_nil_or_startsBlank hblank)
      isBlank_closeBrace
    rw [splitClose_append_of_notMem (notMem_of_allBlank hb isBlank_closeBrace),
      splitClose_append_none hu' (ih fun g hg => hfs g (List.mem_cons_of_mem _ hg)) hhead]
    rfl

/-! ## Reading fragments back -/

/-- The pieces of blanks and of what follows them. -/
theorem lex_blank_append (hb : allBlank b = true) (s : Text) :
    lex (b ++ s) = b.map .point ++ lex s :=
  lex_append_of_notMem (notMem_of_allBlank hb isBlank_openBrace) s

/-- The pieces of blanks behind a text. -/
theorem lex_append_blank (hb : allBlank b = true) (s : Text) :
    lex (s ++ b) = lex s ++ b.map .point := by
  have hhead {c : CodePoint} (hc : isBlank c = false) : b.head? ≠ some c :=
    fun h => notMem_of_allBlank hb hc (List.mem_of_head? h)
  have hlex := lex_blank_append hb []
  rw [List.append_nil, lex_nil, List.append_nil] at hlex
  rw [lex_append (hhead isBlank_openBrace) (hhead isBlank_closeBrace)
    fun _ => splitClose_of_notMem (notMem_of_allBlank hb isBlank_closeBrace), hlex]

/-- No header begins with a blank. -/
theorem takeHeader_blank_append (hb : allBlank b = true) (hne : b ≠ []) (ps : List Piece) :
    takeHeader (b.map .point ++ ps) = none := by
  cases b with
  | nil => exact absurd rfl hne
  | cons c b =>
    refine takeHeader_of_ne ?_ _
    intro h
    rw [allBlank_cons, point.inj h] at hb
    exact absurd (Bool.and_eq_true_iff.1 hb).1 (by decide)

/-- Blanks are a run before anything. -/
theorem isRun_blank (hb : allBlank b = true) (qs : List Piece) : IsRun (b.map .point) qs where
  noCloser := fun h => not_isBrace_of_mem_map_point hb h (.inr rfl)
  noHeader := by
    rintro ps ⟨l, hl⟩ hne
    obtain ⟨b₁, b₂, rfl, -, rfl⟩ := List.map_eq_append_iff.1 hl.symm
    rw [allBlank_append, Bool.and_eq_true] at hb
    exact takeHeader_blank_append hb.2 (by rintro rfl; exact hne rfl) qs

/-- Blanks at the front leave no fragment. -/
theorem segment_blank_append (hb : allBlank b = true) (s : Text) :
    segment (b ++ s) = segment s := by
  obtain ⟨rs, qs, hs, hrun, hstop⟩ := exists_run (lex s)
  rw [segment_eq_ofPieces, segment_eq_ofPieces, lex_blank_append hb, hs, ← List.append_assoc,
    ofPieces_append_of_isRun ((isRun_blank hb _).append hrun) hstop,
    ofPieces_append_of_isRun hrun hstop, consPlain, consPlain, normalAll_append,
    normalAll_map_point, trim_append_left hb]

/-- Plain text is a run before pieces that complete neither a word nor a header in it. -/
theorem IsPlain.isRun (h : IsPlain v fs) (hqs : Directive.atBoundary qs = true)
    (hbrace : startsHeader fs = false → takeBrace qs = none) : IsRun (lex v) qs where
  noCloser := h.noCloser
  noHeader := by
    intro ps hsuf hne
    rw [takeHeader_eq_none_iff,
      Directive.startsWith_append Directive.isKeywordList_headers hqs hne]
    intro hkey
    have hnone := h.noHeader ps hsuf hkey
    by_cases hmem : .char '{' ∈ ps
    · exact takeBrace_append_of_mem hnone hmem (.inl rfl) qs
    · -- No brace stands behind the keyword, so no header follows.
      have hfs : startsHeader fs = false := by
        cases hfs : startsHeader fs with
        | false => rfl
        | true => exact absurd (h.noJoin hfs ps hsuf hkey) hmem
      have hps : ∀ p ∈ ps, ¬ IsBrace p := by
        rintro p hp (rfl | rfl)
        · exact hmem hp
        · exact h.noCloser (hsuf.subset hp)
      rw [takeBrace_append hps, hbrace hfs]
      rfl

/-- What spells fragments that do not begin with plain text is blanks and a stop. -/
theorem Spelled.exists_stop (h : Spelled fs t) (hplain : startsPlain fs = false) :
    ∃ b x, allBlank b = true ∧ t = b ++ x ∧ IsStop (lex x) ∧
      (startsHeader fs = false → takeBrace (lex x) = none) := by
  cases h with
  | nil hb => exact ⟨t, [], hb, by simp, by rw [lex_nil]; exact .nil, fun _ => by rw [lex_nil]; rfl⟩
  | @cons b u t f fs hb hu ht hblank =>
    refine ⟨b, u ++ t, hb, rfl, ?_⟩
    cases hu with
    | plain v => exact absurd hplain (by simp [startsPlain])
    | header hu =>
      exact ⟨.header (hu.takeHeader_append (ht.eq_nil_or_startsBlank hblank)),
        fun h => absurd h (by simp [startsHeader])⟩
    | close =>
      rw [List.singleton_append, lex_cons (by simp)]
      exact ⟨.close _, fun _ => rfl⟩

/-- **Settled fragments are read back** from every text that spells them. -/
theorem segment_of_spelled (hfs : Settled fs) (h : Spelled fs t) : segment t = fs := by
  induction h with
  | @nil b hb =>
    have h := segment_blank_append hb []
    rwa [List.append_nil, segment_eq_ofPieces [], lex_nil, ofPieces_nil] at h
  | @cons b u t f fs hb hu ht hblank ih =>
    have ih := ih hfs.tail
    have hstart := ht.eq_nil_or_startsBlank hblank
    rw [segment_blank_append hb]
    cases hu with
    | close =>
      rw [segment_eq_ofPieces, List.singleton_append, lex_cons (by simp), ofPieces_close,
        ← segment_eq_ofPieces, ih]
    | header hu =>
      rw [segment_eq_ofPieces, ofPieces_header (hu.takeHeader_append hstart),
        ← segment_eq_ofPieces, ih]
      rfl
    | plain =>
      -- What follows is blanks and a stop, because no plain text follows plain text.
      obtain ⟨hplain, -⟩ := hfs
      obtain ⟨b', x, hb', rfl, hstop, hbrace⟩ := ht.exists_stop hplain.separate
      -- The run is the text and the blanks behind it, up to the next fragment.
      have hlex : lex (u ++ (b' ++ x)) = lex u ++ b'.map .point ++ lex x := by
        rw [lex_append (head?_ne_of_startsBlank hstart isBlank_openBrace)
          (head?_ne_of_startsBlank hstart isBlank_closeBrace)
          fun ho => ht.splitClose_none (hplain.noSpan ho), lex_blank_append hb',
          List.append_assoc]
      have hbound := Directive.atBoundary_map_point_append hb' hstop.atBoundary
      have hrun : IsRun (lex u ++ b'.map .point) (lex x) := by
        refine IsRun.append (hplain.isRun hbound fun hhead => ?_) (isRun_blank hb' _)
        rw [takeBrace_append (fun p hp => not_isBrace_of_mem_map_point hb' hp), hbrace hhead]
        rfl
      have hx : ofPieces (lex x) = fs := by
        rw [← segment_eq_ofPieces, ← ih, segment_blank_append hb']
      have hvisible : allBlank (u ++ b') = false := by
        cases hall : allBlank (u ++ b') with
        | false => rfl
        | true =>
          rw [allBlank_append, Bool.and_eq_true, ← trim_eq_nil_iff, hplain.trimmed] at hall
          exact absurd hall.1 hplain.ne_nil
      have hnormal : normalAll (lex u ++ b'.map .point) = u ++ b' := by
        rw [normalAll_append, normalAll_map_point]
        exact congrArg (· ++ b') hplain.normal
      rw [segment_eq_ofPieces, hlex, ofPieces_append_of_isRun hrun hstop, hx, hnormal,
        consPlain_of_not_allBlank hvisible, trim_append_right hb', hplain.trimmed]

/-- A blank text has no fragments. -/
theorem segment_of_allBlank (hb : allBlank b = true) : segment b = [] :=
  segment_of_spelled trivial (.nil hb)

/-! ## Fragments in a row -/

/-- Every fragment of settled ones spells itself. -/
theorem Settled.spells (hfs : Settled (f :: fs)) : Spells f.value f := by
  cases f with
  | plain v => exact .plain v
  | close => exact .close
  | header v =>
    obtain ⟨⟨hv, hnormal⟩, -⟩ := hfs
    have h := Spells.header hv
    rwa [hnormal] at h

/-- Settled fragments joined by blanks are spelled. -/
theorem Settled.spelled_intercalate (hfs : Settled fs) (hsep : allBlank sep = true)
    (hne : sep ≠ []) : Spelled fs (sep.intercalate (fs.map value)) := by
  induction fs with
  | nil => exact .nil rfl
  | cons f fs ih =>
    have ih := ih hfs.tail
    cases fs with
    | nil =>
      rw [List.map_singleton, List.intercalate_singleton]
      have h := Spelled.cons allBlank_nil hfs.spells (.nil allBlank_nil) (by simp)
      rwa [List.append_nil, List.nil_append] at h
    | cons g fs =>
      rw [List.map_cons, List.map_cons, List.intercalate_cons_cons, ← List.map_cons,
        List.append_assoc, ← List.nil_append (f.value ++ _)]
      refine .cons allBlank_nil hfs.spells ?_ fun _ => ?_
      · exact ih.blank_append hsep
      · rw [startsBlank_append hne]
        exact startsBlank_of_allBlank hsep hne

/-- **Cutting is undone by joining and redone by cutting.** Any fragments in a row of any text,
written with a separator of blanks between each two, are cut into the same fragments. -/
theorem segment_intercalate (s : Text) (hfs : fs <:+: segment s) (hne : sep ≠ [])
    (hsep : allBlank sep = true) : segment (sep.intercalate (fs.map value)) = fs :=
  segment_of_spelled ((settled_segment s).of_isInfix hfs)
    (((settled_segment s).of_isInfix hfs).spelled_intercalate hsep hne)

/-- A plain run, a closer and a keyword without a brace, taken out of a longer text. -/
theorem segment_intercalate_chain_word :
    [plain "d".toText, close, plain "@else e".toText] <:+:
        segment "a\x7b\x7bb\x7d\x7d@if(c)\x7b d \x7d @else e".toText ∧
      segment ("\n  ".toText.intercalate
          ([plain "d".toText, close, plain "@else e".toText].map value)) =
        [plain "d".toText, close, plain "@else e".toText] := by
  have h : [plain "d".toText, close, plain "@else e".toText] <:+:
      segment "a\x7b\x7bb\x7d\x7d@if(c)\x7b d \x7d @else e".toText :=
    ⟨[plain "a\x7b\x7b b \x7d\x7d".toText, header "@if(c)\x7b".toText], [], by decide +kernel⟩
  exact ⟨h, segment_intercalate _ h (by decide) (by decide)⟩

end TemplateLayout.Fragment
