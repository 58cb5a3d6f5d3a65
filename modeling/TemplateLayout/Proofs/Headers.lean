import TemplateLayout.Header
import TemplateLayout.Proofs.Segmentation

/-! # Laws of header lines
Reading a header and writing it changes blanks only, and what is written is a header that is read
the same way. The keyword and the condition are found in the text between the `@` and the brace, and
that text is cut by its first characters alone, so the space that writing puts between them does not
move the cut.

* `Header.enclose` — a text between an `@` and a brace;
* `Header.Unopened` — texts without a brace that opens outside spans, which can be read as headers;
* `Header.Braceless` — texts without any brace outside spans, which headers enclose;
* `Header.IsParts` — keyword, gap and condition; `Header.IsParts.ofBody_eq` reads them;
* `Header.exists_read` — a header is read, and its line is a header with the same parts.
-/

namespace TemplateLayout.Header

open Text Piece Token Fragment Directive

variable {s t u v name y b c : Text} {ps qs : List Piece} {fs : List Fragment}

/-! ## Texts without braces -/

/-- A text is **unopened** if every brace in it that opens belongs to a span. -/
def Unopened (s : Text) : Prop := .char '{' ∉ lex s

/-- Reading goes on behind an unopened text as if it were not there. -/
theorem Unopened.lex_append (h : Unopened s) (t : Text) : lex (s ++ t) = lex s ++ lex t := by
  unfold Unopened at h
  fun_induction lex s with
  | case1 => rfl
  | case2 r expr rest hsplit ih =>
    rw [List.cons_append, List.cons_append, lex_span (splitClose_append hsplit t),
      ih fun hmem => h (List.mem_cons_of_mem _ hmem), List.cons_append]
  | case3 r hsplit =>
    -- An open `{{` would be two braces outside every span.
    exact absurd List.mem_cons_self h
  | case4 c r _ ih =>
    have hc : c ≠ .char '{' := by
      rintro rfl
      exact h List.mem_cons_self
    rw [List.cons_append, lex_cons fun hc' => absurd hc' hc,
      ih fun hmem => h (List.mem_cons_of_mem _ hmem), List.cons_append]

theorem Unopened.append (hs : Unopened s) (ht : Unopened t) : Unopened (s ++ t) := by
  rw [Unopened, hs.lex_append, List.mem_append]
  exact fun hmem => hmem.elim hs ht

/-- Squashed, an unopened text stays unopened. -/
theorem Unopened.squash (h : Unopened s) : Unopened (squash s) := by
  rw [Unopened, lex_squash, point_mem_squashAll isBlank_openBrace]
  exact h

/-- A text is **braceless** if every brace in it belongs to a span. -/
def Braceless (s : Text) : Prop := ∀ p ∈ lex s, ¬ IsBrace p

theorem Braceless.unopened (h : Braceless s) : Unopened s := fun hmem => h _ hmem (.inl rfl)

theorem Braceless.append (hs : Braceless s) (ht : Braceless t) : Braceless (s ++ t) := by
  intro p hp
  rw [hs.unopened.lex_append, List.mem_append] at hp
  exact hp.elim (hs p) (ht p)

theorem Braceless.right (hs : Braceless s) (h : Braceless (s ++ t)) : Braceless t := by
  intro p hp
  refine h p ?_
  rw [hs.unopened.lex_append]
  exact List.mem_append_right _ hp

/-- Without the characters there are no braces. -/
theorem braceless_of_notMem (hopen : .char '{' ∉ s) (hclose : .char '}' ∉ s) : Braceless s := by
  have hlex := lex_append_of_notMem hopen []
  rw [List.append_nil, lex_nil, List.append_nil] at hlex
  intro p hp
  rw [hlex] at hp
  obtain ⟨c, hc, rfl⟩ := List.mem_map.1 hp
  rintro (h | h)
  · exact hopen (point.inj h ▸ hc)
  · exact hclose (point.inj h ▸ hc)

/-- Blanks are braceless. -/
theorem braceless_of_allBlank (hb : allBlank b = true) : Braceless b :=
  braceless_of_notMem (notMem_of_allBlank hb isBlank_openBrace)
    (notMem_of_allBlank hb isBlank_closeBrace)

/-- A word is braceless. -/
theorem braceless_of_isWordChar (h : s.all isWordChar = true) : Braceless s := by
  have hnot (c : CodePoint) (hc : isWordChar c = false) : c ∉ s := by
    intro hmem
    rw [List.all_eq_true.1 h c hmem] at hc
    exact absurd hc.symm Bool.false_ne_true
  exact braceless_of_notMem (hnot _ isWordChar_openBrace) (hnot _ isWordChar_closeBrace)

/-- Without blanks at its end a braceless text is braceless. -/
theorem Braceless.left (hb : allBlank b = true) (h : Braceless (s ++ b)) : Braceless s := by
  intro p hp
  refine h p ?_
  rw [lex_append_blank hb]
  exact List.mem_append_left _ hp

theorem Braceless.squash (h : Braceless s) : Braceless (squash s) := by
  intro p hp hbrace
  rw [lex_squash] at hp
  have hmem : p ∈ lex s := by
    rcases hbrace with rfl | rfl <;> exact (point_mem_squashAll (by decide)).1 hp
  exact h p hmem hbrace

/-- Collapsed, a braceless text stays braceless. -/
theorem Braceless.collapse (h : Braceless s) : Braceless (collapse s) := by
  obtain ⟨b, b', hb, hb', hs⟩ := exists_trim s
  rw [hs] at h
  rw [collapse_eq_squash_trim]
  rw [List.append_assoc] at h
  exact (((braceless_of_allBlank hb).right h).left hb').squash

/-- In normal form a braceless text stays braceless. -/
theorem Braceless.normalize (h : Braceless s) : Braceless (Interpolation.normalize s) := by
  intro p hp hbrace
  rw [lex_normalize] at hp
  have hmem : p ∈ lex s := by
    rcases hbrace with rfl | rfl <;> exact point_mem_map_tidy.1 hp
  exact h p hmem hbrace

/-! ## Enclosed texts -/

/-- A text between an `@` and a brace. -/
def enclose (s : Text) : Text := .char '@' :: (s ++ [.char '{'])

theorem lex_enclose (h : Unopened s) :
    lex (enclose s) = .char '@' :: (lex s ++ [.char '{']) := by
  have hbrace : lex [.char '{'] = [.char '{'] := by decide +kernel
  rw [enclose, lex_cons (by simp), h.lex_append, hbrace]

/-- **Headers enclose braceless texts** that begin with a keyword. -/
theorem isHeader_iff :
    IsHeader v ↔ ∃ s, v = enclose s ∧ Braceless s ∧ leadingWord (lex s) ∈ headers := by
  constructor
  · intro h
    obtain ⟨init, hv, -, hword, hinit, -⟩ := takeHeader_eq_some_iff_exists.1 h
    have hlexed := lexed_lex v
    rw [hv] at hlexed
    have hlex : lex (sourceAll init) = init := hlexed.tail.left.lex_sourceAll
    refine ⟨sourceAll init, ?_, by rwa [Braceless, hlex], by rwa [hlex]⟩
    rw [← sourceAll_lex v, hv, sourceAll_cons, sourceAll_append]
    rfl
  · rintro ⟨s, rfl, hs, hword⟩
    rw [IsHeader, lex_enclose hs.unopened]
    exact takeHeader_eq_some_iff_exists.2 ⟨lex s, rfl, by simp, hword, hs, by simp⟩

theorem startsBlank_enclose (s : Text) : startsBlank (enclose s) = false := by
  rw [enclose, startsBlank_cons]
  decide

theorem endsBlank_enclose (s : Text) : endsBlank (enclose s) = false := by
  rw [enclose, ← List.cons_append, endsBlank_append_singleton]
  decide

/-- Blanks are collapsed inside what is enclosed. -/
theorem collapse_enclose (s : Text) : collapse (enclose s) = enclose (squash s) := by
  rw [collapse_eq_squash (startsBlank_enclose s) (endsBlank_enclose s), enclose,
    squash_cons_visible (by decide), squash_append (by decide)]
  rfl

theorem normalize_enclose (h : Braceless s) :
    Interpolation.normalize (enclose s) = enclose (Interpolation.normalize s) := by
  rw [Interpolation.normalize, lex_enclose h.unopened, normalAll_cons, normalAll_append]
  rfl

/-- The keyword decides whether a header opens a block. -/
theorem isOpener_enclose (h : Braceless s) :
    isOpener (enclose s) = true ↔ leadingWord (lex s) ∈ openers := by
  rw [isOpener, collapse_enclose, lex_enclose h.unopened.squash, lex_squash, Bool.and_eq_true,
    startsWith_at isKeywordList_openers, leadingWord_append rfl, leadingWord_squashAll]
  simp

/-- The keyword decides whether a header continues a block. -/
theorem isChain_enclose (h : Braceless s) :
    isChain (enclose s) = true ↔ leadingWord (lex s) ∈ chains := by
  rw [isChain, collapse_enclose, lex_enclose h.unopened.squash, lex_squash,
    startsWith_at isKeywordList_chains, leadingWord_append rfl, leadingWord_squashAll]

/-! ## Reading a header -/

/-- The search for the brace passes over pieces without one. -/
theorem beforeBrace_append (hps : .char '{' ∉ ps) :
    beforeBrace (ps ++ [.char '{']) = some ps := by
  induction ps with
  | nil => rfl
  | cons p ps ih =>
    have hp : p ≠ .char '{' := fun h => hps (h ▸ List.mem_cons_self)
    rw [List.cons_append, beforeBrace, ih fun hmem => hps (List.mem_cons_of_mem _ hmem)]
    · rfl
    · rintro _ rfl
      exact absurd rfl hp
    · exact hp

/-- Pieces that begin with a word begin with one of its characters. -/
theorem exists_point_of_leadingWord (h : leadingWord ps ≠ []) :
    ∃ c qs, ps = .point c :: qs ∧ isWordChar c = true := by
  cases ps with
  | nil => exact absurd rfl h
  | cons p ps =>
    cases p with
    | span e => exact absurd rfl h
    | point c =>
      cases hc : isWordChar c with
      | true => exact ⟨c, ps, rfl, hc⟩
      | false => exact absurd (leadingWord_of_not_wordChar hc ps) h

/-- A text that begins with a word does not begin with a blank. -/
theorem startsBlank_of_leadingWord (h : leadingWord (lex s) ≠ []) : startsBlank s = false := by
  obtain ⟨c, qs, hlex, hc⟩ := exists_point_of_leadingWord h
  rw [← sourceAll_lex s, hlex]
  exact isBlank_of_isWordChar hc

/-- Trimming the end of a text and squashing it can change places. -/
theorem trimRight_squash (s : Text) : trimRight (squash s) = squash (trimRight s) := by
  obtain ⟨b, hb, hs, hend⟩ := exists_trimRight s
  have hblank : allBlank (squash b) = true := by
    rw [← visible_eq_nil_iff, visible_squash, visible_eq_nil_iff, hb]
  conv => lhs; rw [hs]
  rw [squash_append_of_endsBlank hend, trimRight_append hblank,
    trimRight_eq_self (by rwa [endsBlank_squash])]

/-- **A header is read** from the collapsed text between its `@` and its brace. -/
theorem read_enclose (h : Unopened s) (hword : leadingWord (lex s) ≠ []) :
    read (enclose s) = some (ofBody (collapse s)) := by
  -- The text begins with a word, so only its end is trimmed.
  have hstart := startsBlank_of_leadingWord hword
  rw [← leadingWord_squashAll, ← lex_squash] at hword
  obtain ⟨c, qs, hlex, hc⟩ := exists_point_of_leadingWord hword
  have hbrace : beforeBrace (lex (squash s) ++ [.char '{']) = some (lex (squash s)) :=
    beforeBrace_append h.squash
  rw [hlex, List.cons_append] at hbrace
  rw [read, collapse_enclose, lex_enclose h.squash, hlex, List.cons_append, ofPieces, if_pos hc,
    hbrace, ← hlex, Option.map_some, sourceAll_lex, trimRight_squash, collapse_eq_squash_trim, trim,
    trimLeft_eq_self hstart]

/-! ## The parts of a header -/

/-- The **parts** of a header: a keyword that is a word, the qualifier `if` with the blanks before
it where there is one, a gap, and the condition. -/
structure IsParts (name y b c : Text) : Prop where
  /-- The keyword is a word. -/
  word : name.all isWordChar = true
  /-- There is a qualifier or none. -/
  qualifier : y = [] ∨ ∃ g, allBlank g = true ∧ g ≠ [] ∧ y = g ++ "if".toText
  /-- The gap is blank. -/
  gap : allBlank b = true
  /-- The condition begins with no blank. -/
  condition : startsBlank c = false
  /-- Without a qualifier the keyword is complete. -/
  complete : y = [] → (b ++ c).head?.any isWordChar = false
  /-- Without a qualifier the condition does not begin with one. -/
  unqualified : y = [] → "if".toText.isPrefixOf c = false

/-- The word characters at the front of a text that goes on with something else. -/
theorem takeWhile_word (hname : name.all isWordChar = true)
    (ht : t.head?.any isWordChar = false) :
    (name ++ t).takeWhile isWordChar = name ∧ (name ++ t).dropWhile isWordChar = t := by
  rw [List.takeWhile_append_of_pos (List.all_eq_true.1 hname),
    List.dropWhile_append_of_pos (List.all_eq_true.1 hname)]
  cases t with
  | nil => simp
  | cons d t =>
    have hd : ¬ isWordChar d = true := by simpa using ht
    simp [hd]

/-- The blanks at the front of a text that goes on with something else. -/
theorem takeWhile_blank (hb : allBlank b = true) (ht : startsBlank t = false) :
    (b ++ t).takeWhile isBlank = b ∧ (b ++ t).dropWhile isBlank = t := by
  rw [List.takeWhile_append_of_pos (List.all_eq_true.1 hb),
    List.dropWhile_append_of_pos (List.all_eq_true.1 hb)]
  cases t with
  | nil => simp
  | cons d t =>
    have hd : ¬ isBlank d = true := by simpa using ht
    simp [hd]

/-- **The parts are read** as they are. -/
theorem IsParts.ofBody_eq (h : IsParts name y b c) :
    ofBody (name ++ (y ++ (b ++ c))) = ⟨.char '@' :: (name ++ y), c⟩ := by
  rcases h.qualifier with rfl | ⟨g, hg, hne, rfl⟩
  · -- The gap follows the keyword, and the condition begins with no qualifier.
    obtain ⟨htake, hdrop⟩ := takeWhile_word h.word (h.complete rfl)
    obtain ⟨htake', hdrop'⟩ := takeWhile_blank h.gap h.condition
    simp only [ofBody, List.nil_append, htake, hdrop, htake', hdrop', h.unqualified rfl,
      Bool.and_false, List.append_nil]
    rfl
  · -- The blanks before the qualifier follow the keyword, and the gap stands behind it.
    have hword : (g ++ "if".toText ++ (b ++ c)).head?.any isWordChar = false := by
      cases g with
      | nil => exact absurd rfl hne
      | cons d g => exact isWordChar_of_isBlank (Bool.and_eq_true_iff.1 hg).1
    obtain ⟨htake, hdrop⟩ := takeWhile_word h.word hword
    have hif : startsBlank ("if".toText ++ (b ++ c)) = false := by
      rw [startsBlank_append (by decide)]
      decide
    obtain ⟨htake', hdrop'⟩ := takeWhile_blank hg hif
    rw [List.append_assoc] at htake hdrop
    have hcond : trimLeft (b ++ c) = c := by
      rw [trimLeft_append h.gap, trimLeft_eq_self h.condition]
    have hdrop2 : ("if".toText ++ (b ++ c)).drop 2 = b ++ c := rfl
    simp only [ofBody, List.append_assoc, htake, hdrop, htake', hdrop', hdrop2, hcond]
    simp [hne]

/-- What a text begins with as long as it is of one kind ends before something else. -/
theorem head?_dropWhile_any (p : CodePoint → Bool) (s : Text) :
    (s.dropWhile p).head?.any p = false := by
  induction s with
  | nil => rfl
  | cons d s ih =>
    rw [List.dropWhile_cons]
    split
    · exact ih
    · next hd => exact eq_false_of_ne_true hd

theorem all_takeWhile (p : CodePoint → Bool) (s : Text) : (s.takeWhile p).all p = true := by
  induction s with
  | nil => rfl
  | cons d s ih =>
    rw [List.takeWhile_cons]
    split
    · next hd => rw [List.all_cons, hd, ih, Bool.and_self]
    · rfl

/-- **Every text falls into parts.** -/
theorem exists_parts (s : Text) :
    ∃ name y b c, IsParts name y b c ∧ s = name ++ (y ++ (b ++ c)) := by
  have hs := List.takeWhile_append_dropWhile (p := isWordChar) (l := s)
  generalize hname : s.takeWhile isWordChar = name at hs
  generalize hr : s.dropWhile isWordChar = r at hs
  have hword : name.all isWordChar = true := hname ▸ all_takeWhile isWordChar s
  have hcomplete : r.head?.any isWordChar = false := hr ▸ head?_dropWhile_any isWordChar s
  obtain ⟨g, hg, hrest, hstart⟩ := exists_trimLeft r
  generalize trimLeft r = rest at hrest hstart
  subst hrest
  by_cases hif : g ≠ [] ∧ "if".toText.isPrefixOf rest = true
  · obtain ⟨hne, hpre⟩ := hif
    obtain ⟨r2, rfl⟩ := List.isPrefixOf_iff_prefix.1 hpre
    obtain ⟨b, hb, hr2, hcond⟩ := exists_trimLeft r2
    refine ⟨name, g ++ "if".toText, b, trimLeft r2,
      ⟨hword, .inr ⟨g, hg, hne, rfl⟩, hb, hcond, ?_, ?_⟩, ?_⟩
    · simp [hne]
    · simp [hne]
    · rw [← hr2, ← hs, List.append_assoc]
  · refine ⟨name, [], g, rest,
      ⟨hword, .inl rfl, hg, hstart, fun _ => hcomplete, fun _ => ?_⟩, hs.symm⟩
    by_cases hne : g = []
    · -- The keyword is complete, so no word character follows it, and `i` is one.
      subst hne
      refine eq_false_of_ne_true fun h => ?_
      obtain ⟨x, rfl⟩ := List.isPrefixOf_iff_prefix.1 h
      have hi : ("if".toText ++ x).head? = some (.char 'i') := rfl
      rw [List.nil_append, hi] at hcomplete
      exact absurd hcomplete (by decide +kernel)
    · exact eq_false_of_ne_true fun h => hif ⟨hne, h⟩

/-- One space before a condition, none where there is no condition. -/
def gapFor (c : Text) : Text := if c.isEmpty then [] else [.char ' ']

/-- The parts stay parts with another gap. -/
theorem IsParts.respace (h : IsParts name y b c) : IsParts name y (gapFor c) c where
  word := h.word
  qualifier := h.qualifier
  gap := by
    unfold gapFor
    split <;> rfl
  condition := h.condition
  complete := by
    intro hy
    cases c with
    | nil => rfl
    | cons d c => exact isWordChar_of_isBlank isBlank_space
  unqualified := h.unqualified

/-- A header as a line: its keyword and condition, respaced, between `@` and brace. -/
theorem write_parts (name y c : Text) :
    write ⟨.char '@' :: (name ++ y), c⟩ =
      enclose (name ++ (y ++ (gapFor c ++ c)) ++ [.char ' ']) := by
  cases c with
  | nil => simp [write, enclose, gapFor]
  | cons d c => simp [write, enclose, gapFor]

/-! ## Header lines -/

/-- Before the condition there are only word characters and blanks. -/
theorem IsParts.notMem {d : CodePoint} (h : IsParts name y b c) (hword : isWordChar d = false)
    (hblank : isBlank d = false) : d ∉ name ++ (y ++ b) := by
  have hnot (x : Text) (hx : x.all isWordChar = true) : d ∉ x := by
    intro hmem
    rw [List.all_eq_true.1 hx d hmem] at hword
    exact absurd hword.symm Bool.false_ne_true
  have hy : d ∉ y := by
    rcases h.qualifier with rfl | ⟨g, hg, -, rfl⟩
    · exact List.not_mem_nil
    · rw [List.mem_append]
      rintro (hmem | hmem)
      · exact notMem_of_allBlank hg hblank hmem
      · exact hnot _ (by decide +kernel) hmem
  simp only [List.mem_append, not_or]
  exact ⟨hnot name h.word, hy, notMem_of_allBlank h.gap hblank⟩

/-- Spans and braces stand in the condition only. -/
theorem IsParts.lex_eq (h : IsParts name y b c) :
    lex (name ++ (y ++ (b ++ c))) = (name ++ (y ++ b)).map .point ++ lex c := by
  have hassoc : name ++ (y ++ (b ++ c)) = name ++ (y ++ b) ++ c := by simp
  rw [hassoc, lex_append_of_notMem (h.notMem isWordChar_openBrace isBlank_openBrace)]

/-- The parts are braceless exactly if the condition is. -/
theorem IsParts.braceless_iff (h : IsParts name y b c) :
    Braceless (name ++ (y ++ (b ++ c))) ↔ Braceless c := by
  have hpre : Braceless (name ++ (y ++ b)) := braceless_of_notMem
    (h.notMem isWordChar_openBrace isBlank_openBrace)
    (h.notMem isWordChar_closeBrace isBlank_closeBrace)
  have hassoc : name ++ (y ++ (b ++ c)) = name ++ (y ++ b) ++ c := by simp
  rw [hassoc]
  exact ⟨hpre.right, hpre.append⟩

/-- The spans of the parts are those of the condition. -/
theorem IsParts.padded_iff (h : IsParts name y b c) :
    Padded (lex (name ++ (y ++ (b ++ c)))) ↔ Padded (lex c) := by
  rw [h.lex_eq]
  simp [Padded]

/-- The keyword is the leading word. -/
theorem IsParts.leadingWord_eq (h : IsParts name y b c) :
    leadingWord (lex (name ++ (y ++ (b ++ c)))) = name := by
  have hlex : lex name = name.map .point := by
    have hopen : .char '{' ∉ name := fun hmem =>
      h.notMem isWordChar_openBrace isBlank_openBrace (List.mem_append_left _ hmem)
    have hlex := lex_append_of_notMem hopen []
    rwa [List.append_nil, lex_nil, List.append_nil] at hlex
  rw [(braceless_of_isWordChar h.word).unopened.lex_append, hlex]
  refine leadingWord_append_of_atBoundary h.word (atBoundary_lex ?_)
  rcases h.qualifier with rfl | ⟨g, hg, hne, rfl⟩
  · exact h.complete rfl
  · cases g with
    | nil => exact absurd rfl hne
    | cons d g => exact isWordChar_of_isBlank (Bool.and_eq_true_iff.1 hg).1

/-- The keyword and its qualifier end with no blank. -/
theorem IsParts.endsBlank_keyword (h : IsParts name y b c) : endsBlank (name ++ y) = false := by
  rcases h.qualifier with rfl | ⟨g, hg, hne, rfl⟩
  · rw [List.append_nil]
    rcases List.eq_nil_or_concat name with rfl | ⟨x, d, rfl⟩
    · rfl
    · rw [List.concat_eq_append, endsBlank_append_singleton]
      refine isBlank_of_isWordChar (List.all_eq_true.1 h.word d ?_)
      simp
  · rw [← List.append_assoc, endsBlank_append (by decide)]
    decide

/-- **Respaced parts of a collapsed text are collapsed.** -/
theorem IsParts.collapse_respaced (h : IsParts name y b c) (hname : name ≠ [])
    (hs : collapse s = name ++ (y ++ (b ++ c))) :
    collapse (name ++ (y ++ (gapFor c ++ c))) = name ++ (y ++ (gapFor c ++ c)) := by
  have hsquash : squash (name ++ y ++ (b ++ c)) = name ++ y ++ (b ++ c) := by
    rw [List.append_assoc, ← hs, collapse_eq_squash_trim, squash_squash]
  -- The parts of a squashed text are squashed, and so is one space between them.
  have hc : squash c = c := squash_right_eq_self (squash_right_eq_self hsquash)
  have hend : c ≠ [] → endsBlank c = false := by
    intro hne
    rw [← endsBlank_append hne (name ++ (y ++ b))]
    simp only [List.append_assoc]
    rw [← hs, collapse_eq_squash_trim, endsBlank_squash, endsBlank_trim]
  have hstart : startsBlank (name ++ y) = false := by
    rw [startsBlank_append hname]
    cases name with
    | nil => rfl
    | cons d name => exact isBlank_of_isWordChar (Bool.and_eq_true_iff.1 h.word).1
  have hne : name ++ y ≠ [] := by simp [hname]
  rw [← List.append_assoc, collapse_eq_squash]
  · rw [squash_append_of_endsBlank h.endsBlank_keyword, squash_left_eq_self hsquash]
    cases c with
    | nil => rfl
    | cons d c =>
      rw [gapFor, List.isEmpty_cons, if_neg Bool.false_ne_true, List.singleton_append,
        squash_cons_blank isBlank_space h.condition, hc]
  · rw [startsBlank_append hne, hstart]
  · cases c with
    | nil =>
      rw [gapFor, List.isEmpty_nil, if_pos rfl, List.append_nil, List.append_nil,
        h.endsBlank_keyword]
    | cons d c =>
      rw [endsBlank_append (by simp), endsBlank_append (by simp)]
      exact hend (by simp)

/-- **Respaced parts are read as they were**, with the space that writing puts before the brace. -/
theorem IsParts.ofBody_collapse_respaced (h : IsParts name y b c) (hname : name ≠ [])
    (hs : collapse s = name ++ (y ++ (b ++ c))) :
    ofBody (collapse (name ++ (y ++ (gapFor c ++ c)) ++ [.char ' '])) =
      ⟨.char '@' :: (name ++ y), c⟩ := by
  rw [collapse_eq_collapse_iff.2 (words_append_right (by decide) _), h.collapse_respaced hname hs,
    h.respace.ofBody_eq]

/-- Trimming a text takes blanks from its pieces. -/
theorem exists_lex_trim (s : Text) :
    ∃ b b', allBlank b = true ∧ allBlank b' = true ∧
      lex s = b.map .point ++ (lex (trim s) ++ b'.map .point) := by
  obtain ⟨b, b', hb, hb', hs⟩ := exists_trim s
  refine ⟨b, b', hb, hb', ?_⟩
  conv => lhs; rw [hs]
  rw [List.append_assoc, lex_blank_append hb, lex_append_blank hb']

/-- Collapsing keeps the leading word. -/
theorem leadingWord_lex_collapse (h : leadingWord (lex s) ≠ []) :
    leadingWord (lex (collapse s)) = leadingWord (lex s) := by
  obtain ⟨b, b', hb, hb', hlex⟩ := exists_lex_trim s
  have hnil : b = [] := by
    cases b with
    | nil => rfl
    | cons d b =>
      rw [hlex] at h
      exact absurd (leadingWord_of_not_wordChar (isWordChar_of_isBlank
        (Bool.and_eq_true_iff.1 hb).1) _) h
  have hbound : atBoundary (b'.map .point ++ []) = true := atBoundary_map_point_append hb' rfl
  rw [List.append_nil] at hbound
  rw [collapse_eq_squash_trim, lex_squash, leadingWord_squashAll, hlex, hnil, List.map_nil,
    List.nil_append, leadingWord_append hbound]

/-- Collapsing keeps the blanks inside the ends of a span. -/
theorem padded_lex_collapse (h : Padded (lex s)) : Padded (lex (collapse s)) := by
  obtain ⟨b, b', -, -, hlex⟩ := exists_lex_trim s
  rw [collapse_eq_squash_trim, lex_squash]
  refine Padded.squashAll (h.of_subset fun p hp => ?_)
  rw [hlex]
  exact List.mem_append_right _ (List.mem_append_left _ hp)

/-- A text with padded spans collapses as its normal form does. -/
theorem collapse_normalize (h : Padded (lex s)) :
    collapse (Interpolation.normalize s) = collapse s := by
  have hsquash : squash (Interpolation.normalize s) = squash s := by
    rw [← sourceAll_lex (squash _), lex_squash, lex_normalize, squashAll_map_tidy h, ← lex_squash,
      sourceAll_lex]
  rw [collapse_eq_collapse_iff, ← words_squash, hsquash, words_squash]

/-- **A header is read and written** with its keyword, and read back from what is written. -/
theorem exists_write (hs : Braceless s) (hword : leadingWord (lex s) ∈ headers) :
    ∃ h t, read (enclose s) = some h ∧ h.write = enclose t ∧ Braceless t ∧
      leadingWord (lex t) = leadingWord (lex s) ∧ ofBody (collapse t) = h ∧
      visible t = visible s ∧ (Padded (lex s) → Padded (lex t)) := by
  have hne : leadingWord (lex s) ≠ [] := by
    intro hnil
    rw [hnil] at hword
    exact absurd hword (by decide)
  -- Only the gap before the condition is written anew, so the keyword stays where it is.
  obtain ⟨name, y, b, c, hparts, hB⟩ := exists_parts (collapse s)
  have hname : name = leadingWord (lex s) := by
    rw [← leadingWord_lex_collapse hne, hB, hparts.leadingWord_eq]
  have hspace : allBlank [.char ' '] = true := by decide
  refine ⟨⟨.char '@' :: (name ++ y), c⟩, name ++ (y ++ (gapFor c ++ c)) ++ [.char ' '], ?_,
    write_parts name y c, ?_, ?_, ?_, ?_, ?_⟩
  · rw [read_enclose hs.unopened hne, hB, hparts.ofBody_eq]
  · refine Braceless.append (hparts.respace.braceless_iff.2 ?_) (braceless_of_allBlank hspace)
    rw [← hparts.braceless_iff, ← hB]
    exact hs.collapse
  · rw [lex_append_blank hspace, leadingWord_append rfl, hparts.respace.leadingWord_eq, hname]
  · exact hparts.ofBody_collapse_respaced (hname ▸ hne) hB
  · have hvisible := visible_collapse s
    rw [hB] at hvisible
    simpa [visible_of_allBlank hparts.gap, visible_of_allBlank hparts.respace.gap,
      visible_of_allBlank hspace] using hvisible
  · intro hpad
    have hc : Padded (lex c) := by
      rw [← hparts.padded_iff, ← hB]
      exact padded_lex_collapse hpad
    rw [lex_append_blank hspace]
    intro e he
    exact hparts.respace.padded_iff.2 hc e (by simpa using he)

/-- What a text says as a **header line**, without an indent. -/
def spoken (v : Text) : Text := (line v []).value

theorem spoken_of_read {h : Header} (hv : read v = some h) : spoken v = h.write := by
  rw [spoken, line, hv]
  rfl

theorem spoken_of_read_none (hv : read v = none) : spoken v = trim v := by
  rw [spoken, line, hv]
  rfl

/-- The indent stands before the line. -/
theorem value_line (v indent : Text) : (line v indent).value = indent ++ spoken v := by
  rw [spoken, line, line]
  split <;> rfl

/-- **The line of a header** is a header. In normal form it is read as the header was, and it opens
or continues a block if the header did. -/
theorem exists_read (hv : IsHeader v) (hnormal : Interpolation.normalize v = v) :
    ∃ h, read v = some h ∧ IsHeader h.write ∧ visible h.write = visible v ∧
      read (Interpolation.normalize h.write) = some h ∧
      isOpener (Interpolation.normalize h.write) = isOpener v ∧
      isChain (Interpolation.normalize h.write) = isChain v := by
  -- In normal form spans are padded, so collapsing the header leaves a space at their ends.
  have hpad : Padded (lex v) := by
    rw [← hnormal, lex_normalize]
    exact padded_map_tidy _
  obtain ⟨s, rfl, hs, hword⟩ := isHeader_iff.1 hv
  obtain ⟨h, t, hread, hwrite, ht, hlead, hbody, hvisible, hpadded⟩ := exists_write hs hword
  have hlead' : leadingWord (lex (Interpolation.normalize t)) = leadingWord (lex s) := by
    rw [lex_normalize, leadingWord_map_tidy, hlead]
  have hne : leadingWord (lex (Interpolation.normalize t)) ≠ [] := by
    intro hnil
    rw [← hlead', hnil] at hword
    exact absurd hword (by decide)
  have hpad' : Padded (lex t) := hpadded (hpad.of_subset fun p hp => by
    rw [lex_enclose hs.unopened]
    exact List.mem_cons_of_mem _ (List.mem_append_left _ hp))
  refine ⟨h, hread, ?_, ?_, ?_, ?_, ?_⟩
  · rw [hwrite]
    exact isHeader_iff.2 ⟨t, rfl, ht, hlead ▸ hword⟩
  · rw [hwrite, enclose, enclose, visible_cons, visible_cons, visible_append, visible_append,
      hvisible]
  · rw [hwrite, normalize_enclose ht, read_enclose ht.normalize.unopened hne,
      collapse_normalize hpad', hbody]
  · rw [Bool.eq_iff_iff, hwrite, normalize_enclose ht, isOpener_enclose ht.normalize,
      isOpener_enclose hs, hlead']
  · rw [Bool.eq_iff_iff, hwrite, normalize_enclose ht, isChain_enclose ht.normalize,
      isChain_enclose hs, hlead']

/-! ## Plain text -/

/-- Squashing makes no block brace. -/
theorem takeBrace_squashAll (h : takeBrace ps = none) : takeBrace (squashAll ps) = none := by
  fun_induction takeBrace ps with
  | case1 => rfl
  | case2 ps =>
    rw [squashAll_point_visible isBlank_openBrace, squashAll_point_visible isBlank_openBrace]
    rfl
  | case3 => simp at h
  | case4 ps =>
    rw [squashAll_point_visible isBlank_closeBrace]
    rfl
  | case5 p ps _ hopen hclose ih =>
    have ih := ih (Option.map_eq_none_iff.1 h)
    have hcons (q : Piece) (hq : ¬ IsBrace q) : takeBrace (q :: squashAll ps) = none := by
      rw [takeBrace_cons hq, ih]
      rfl
    cases p with
    | span e => exact hcons _ (by rintro (h | h) <;> simp at h)
    | point c =>
      -- A blank goes, or a space stands for it; any other character stays.
      rw [squashAll]
      split
      · split
        · exact ih
        · exact hcons _ (by rintro (h | h) <;> simp at h)
      · exact hcons _ fun hbr => hbr.elim hopen hclose

/-- Without a block brace and without a closer there is no brace to read up to. -/
theorem beforeBrace_eq_none (h : takeBrace ps = none) (hclose : .char '}' ∉ ps) :
    beforeBrace ps = none := by
  fun_induction takeBrace ps with
  | case1 => rfl
  | case2 => rfl
  | case3 => simp at h
  | case4 => simp at hclose
  | case5 p ps _ hopen _ ih =>
    have ih := ih (Option.map_eq_none_iff.1 h) fun hmem => hclose (List.mem_cons_of_mem _ hmem)
    rw [beforeBrace, ih]
    · rfl
    · rintro _ rfl
      exact absurd rfl hopen
    · exact hopen

/-- **Plain text holds no header**, even where it begins with a keyword. -/
theorem read_eq_none_of_isPlain (h : IsPlain v fs)
    (hkey : isOpener v = true ∨ isChain v = true) : read v = none := by
  have hends : startsBlank v = false ∧ endsBlank v = false := by
    rw [← h.trimmed]
    exact ⟨startsBlank_trim v, endsBlank_trim v⟩
  have hlex : lex (collapse v) = squashAll (lex v) := by
    rw [collapse_eq_squash hends.1 hends.2, lex_squash]
  have hstart : startsWith headers (squashAll (lex v)) = true := by
    rcases hkey with hkey | hkey
    · rw [isOpener, hlex, Bool.and_eq_true] at hkey
      exact startsWith_headers_of_openers hkey.1
    · rw [isChain, hlex] at hkey
      exact startsWith_headers_of_chains hkey
  rw [startsWith_squashAll isKeywordList_headers (by rw [sourceAll_lex]; exact hends.1)] at hstart
  have hnone := takeBrace_squashAll (h.noHeader _ List.suffix_rfl hstart)
  have hclose : .char '}' ∉ squashAll (lex v) := by
    rw [point_mem_squashAll isBlank_closeBrace]
    exact h.noCloser
  -- Reading goes on to a brace without regard to closers, but there are none.
  rw [read, hlex]
  unfold ofPieces
  split
  · next c qs heq =>
    rw [heq, takeBrace_cons (by rintro (h | h) <;> simp at h), Option.map_eq_none_iff] at hnone
    rw [heq] at hclose
    rw [beforeBrace_eq_none hnone fun hmem => hclose (List.mem_cons_of_mem _ hmem)]
    split <;> rfl
  · rfl

end TemplateLayout.Header
