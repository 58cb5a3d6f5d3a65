import TemplateLayout.Directive
import TemplateLayout.Proofs.Spans

/-! # Laws of keywords
A keyword is recognised by the whole word after the `@`. The lists also hold a keyword of two
words, but its first word is in them too, so one word decides. What may follow the word, and what
is done to the blanks and spans behind it, therefore changes nothing.

* `Directive.leadingWord` — the word characters that pieces begin with;
* `Directive.IsKeywordList` — lists in which the first word of each keyword is a keyword;
* `Directive.startsWith_at` — the leading word decides.
-/

namespace TemplateLayout

open Text

/-! ## Word characters -/

/-- The numbers of the blank code points. -/
def Text.blankNumbers : List Nat :=
  List.range' 0x09 5 ++ List.range' 0x1C 5 ++ [0x85, 0xA0, 0x1680] ++ List.range' 0x2000 11 ++
    [0x2028, 0x2029, 0x202F, 0x205F, 0x3000]

/-- The number of a blank is one of those listed. -/
theorem Text.toNat_mem_blankNumbers {c : CodePoint} (hc : isBlank c = true) :
    c.toNat ∈ blankNumbers := by
  simp only [isBlank, Bool.or_eq_true, Bool.and_eq_true, decide_eq_true_eq, beq_iff_eq] at hc
  simp only [blankNumbers, List.mem_append, List.mem_range'_1, List.mem_cons, List.not_mem_nil,
    or_false]
  omega

/-- **A blank is no word character.** -/
theorem Text.isWordChar_of_isBlank {c : CodePoint} (hc : isBlank c = true) :
    isWordChar c = false := by
  have hall : ∀ n ∈ blankNumbers, isWordChar (.ofNat n) = false := by decide +kernel
  have h := hall _ (toNat_mem_blankNumbers hc)
  rwa [CodePoint.ofNat_toNat] at h

/-- A word character is not blank. -/
theorem Text.isBlank_of_isWordChar {c : CodePoint} (hc : isWordChar c = true) :
    isBlank c = false := by
  cases hb : isBlank c with
  | false => rfl
  | true =>
    rw [isWordChar_of_isBlank hb] at hc
    exact absurd hc Bool.false_ne_true

theorem Text.isWordChar_openBrace : isWordChar (.char '{') = false := by decide +kernel

theorem Text.isWordChar_closeBrace : isWordChar (.char '}') = false := by decide +kernel

namespace Directive

open Piece

variable {ks : List Text} {w k : Text} {c : CodePoint} {ps qs : List Piece}

/-! ## The leading word -/

/-- The **leading word** of pieces: the word characters that they begin with. -/
def leadingWord : List Piece → Text
  | .point c :: ps => if isWordChar c then c :: leadingWord ps else []
  | _ => []

theorem leadingWord_point (hc : isWordChar c = true) (ps : List Piece) :
    leadingWord (.point c :: ps) = c :: leadingWord ps := by
  rw [leadingWord, if_pos hc]

theorem leadingWord_of_not_wordChar (hc : isWordChar c = false) (ps : List Piece) :
    leadingWord (.point c :: ps) = [] := by
  rw [leadingWord, if_neg (by rw [hc]; exact Bool.false_ne_true)]

/-- Pieces are their leading word and what follows it, where the word is complete. -/
theorem exists_leadingWord (ps : List Piece) :
    ∃ rest, ps = (leadingWord ps).map .point ++ rest ∧ atBoundary rest = true := by
  induction ps with
  | nil => exact ⟨[], rfl, rfl⟩
  | cons p ps ih =>
    cases p with
    | span e => exact ⟨.span e :: ps, rfl, rfl⟩
    | point c =>
      cases hc : isWordChar c with
      | true =>
        obtain ⟨rest, hps, hrest⟩ := ih
        refine ⟨rest, ?_, hrest⟩
        rw [leadingWord_point hc, List.map_cons, List.cons_append, ← hps]
      | false =>
        refine ⟨.point c :: ps, ?_, ?_⟩
        · rw [leadingWord_of_not_wordChar hc]
          rfl
        · rw [atBoundary, hc]
          rfl

/-- A complete word at the start is the leading word. -/
theorem leadingWord_append_of_atBoundary (hw : w.all isWordChar = true)
    (hps : atBoundary ps = true) : leadingWord (w.map .point ++ ps) = w := by
  induction w with
  | nil =>
    cases ps with
    | nil => rfl
    | cons p ps =>
      cases p with
      | span e => rfl
      | point c => exact leadingWord_of_not_wordChar (by simpa [atBoundary] using hps) ps
  | cons c w ih =>
    obtain ⟨hc, hw⟩ := Bool.and_eq_true_iff.1 hw
    rw [List.map_cons, List.cons_append, leadingWord_point hc, ih hw]

/-- The leading word does not depend on what stands behind a complete word. -/
theorem leadingWord_append (hqs : atBoundary qs = true) (ps : List Piece) :
    leadingWord (ps ++ qs) = leadingWord ps := by
  induction ps with
  | nil => exact leadingWord_append_of_atBoundary (w := []) rfl hqs
  | cons p ps ih =>
    cases p with
    | span e => rfl
    | point c => rw [List.cons_append, leadingWord, leadingWord, ih]

/-- Blanks leave a word complete. -/
theorem atBoundary_map_point_append {b : Text} (hb : allBlank b = true)
    (hps : atBoundary ps = true) : atBoundary (b.map .point ++ ps) = true := by
  cases b with
  | nil => exact hps
  | cons c b =>
    have hc := isWordChar_of_isBlank (Bool.and_eq_true_iff.1 hb).1
    rw [List.map_cons, List.cons_append, atBoundary, hc]
    rfl

/-- A word is complete before a text that begins with no word character. -/
theorem atBoundary_lex {t : Text} (ht : t.head?.any isWordChar = false) :
    atBoundary (lex t) = true := by
  fun_cases lex t with
  | case1 => rfl
  | case2 => rfl
  | case3 => rfl
  | case4 c r =>
    have hc : isWordChar c = false := ht
    rw [atBoundary, hc]
    rfl

/-! ## Reading a keyword -/

/-- A word can be dropped exactly where the pieces begin with it. -/
theorem dropWord_eq_some_iff : dropWord w ps = some qs ↔ ps = w.map .point ++ qs := by
  induction w generalizing ps with
  | nil => simp [dropWord]
  | cons k w ih =>
    cases ps with
    | nil => simp [dropWord]
    | cons p ps =>
      cases p with
      | span e => simp [dropWord]
      | point c =>
        rw [dropWord]
        by_cases hck : c = k
        · subst hck
          simp [ih]
        · simp [hck]

/-- A list of keywords in which **one word decides**: each keyword is a word, or begins with a
keyword that is a word and a space. -/
def IsKeywordList (ks : List Text) : Prop :=
  ∀ k ∈ ks, k.all isWordChar = true ∨
    ∃ w ∈ ks, w.all isWordChar = true ∧ w ++ [.char ' '] <+: k

/-- A word of the list is found exactly if the leading word is in the list. -/
theorem startsWithWord_iff (hks : IsKeywordList ks) :
    startsWithWord ks ps = true ↔ leadingWord ps ∈ ks := by
  rw [startsWithWord, List.any_eq_true]
  constructor
  · rintro ⟨k, hk, hfound⟩
    cases hdrop : dropWord k ps with
    | none =>
      rw [hdrop] at hfound
      exact absurd hfound Bool.false_ne_true
    | some rest =>
      rw [hdrop] at hfound
      rw [dropWord_eq_some_iff.1 hdrop]
      rcases hks k hk with hword | ⟨w, hw, hword, x, rfl⟩
      · rwa [leadingWord_append_of_atBoundary hword hfound]
      · -- A keyword of two words: its first word stands before a space.
        rw [List.map_append, List.map_append, List.append_assoc, List.append_assoc,
          leadingWord_append_of_atBoundary hword rfl]
        exact hw
  · intro hmem
    obtain ⟨rest, hps, hrest⟩ := exists_leadingWord ps
    exact ⟨leadingWord ps, hmem, by rw [dropWord_eq_some_iff.2 hps]; exact hrest⟩

/-- **The leading word decides** whether pieces begin with `@` and a keyword. -/
theorem startsWith_at (hks : IsKeywordList ks) (ps : List Piece) :
    startsWith ks (.char '@' :: ps) = true ↔ leadingWord ps ∈ ks :=
  startsWithWord_iff hks

/-- Pieces that begin with `@` and a keyword. -/
theorem startsWith_iff (hks : IsKeywordList ks) :
    startsWith ks ps = true ↔ ∃ qs, ps = .char '@' :: qs ∧ leadingWord qs ∈ ks := by
  constructor
  · intro h
    unfold startsWith at h
    split at h
    · next qs => exact ⟨qs, rfl, (startsWith_at hks qs).1 h⟩
    · exact absurd h Bool.false_ne_true
  · rintro ⟨qs, rfl, h⟩
    exact (startsWith_at hks qs).2 h

/-- What stands behind a complete word does not change the keyword. -/
theorem startsWith_append (hks : IsKeywordList ks) (hqs : atBoundary qs = true) (hne : ps ≠ []) :
    startsWith ks (ps ++ qs) = startsWith ks ps := by
  cases ps with
  | nil => exact absurd rfl hne
  | cons p ps =>
    rw [Bool.eq_iff_iff, startsWith_iff hks, startsWith_iff hks]
    simp only [List.cons_append, List.cons.injEq]
    constructor
    · rintro ⟨_, ⟨rfl, rfl⟩, h⟩
      exact ⟨ps, ⟨rfl, rfl⟩, by rwa [leadingWord_append hqs] at h⟩
    · rintro ⟨_, ⟨rfl, rfl⟩, h⟩
      exact ⟨ps ++ qs, ⟨rfl, rfl⟩, by rwa [leadingWord_append hqs]⟩

instance (ks : List Text) : Decidable (IsKeywordList ks) :=
  inferInstanceAs (Decidable (∀ k ∈ ks, _))

/-! ## The three lists -/

theorem isKeywordList_openers : IsKeywordList openers := by decide

theorem isKeywordList_chains : IsKeywordList chains := by decide

theorem isKeywordList_headers : IsKeywordList headers := by decide

/-- A header begins with an opening keyword or with a chain keyword, and each of these may begin
one. -/
theorem mem_headers_iff : k ∈ headers ↔ k ∈ openers ∨ k ∈ chains := by
  simp only [headers, List.mem_append, List.mem_filter, Bool.not_eq_true', List.contains_eq_mem,
    decide_eq_false_iff_not]
  constructor
  · rintro (h | ⟨h, -⟩)
    · exact .inl h
    · exact .inr h
  · intro h
    by_cases ho : k ∈ openers
    · exact .inl ho
    · exact .inr ⟨h.resolve_left ho, ho⟩

/-- An opening keyword may begin a header. -/
theorem startsWith_headers_of_openers (h : startsWith openers ps = true) :
    startsWith headers ps = true := by
  obtain ⟨qs, rfl, hqs⟩ := (startsWith_iff isKeywordList_openers).1 h
  exact (startsWith_at isKeywordList_headers qs).2 (mem_headers_iff.2 (.inl hqs))

/-- A chain keyword may begin a header. -/
theorem startsWith_headers_of_chains (h : startsWith chains ps = true) :
    startsWith headers ps = true := by
  obtain ⟨qs, rfl, hqs⟩ := (startsWith_iff isKeywordList_chains).1 h
  exact (startsWith_at isKeywordList_headers qs).2 (mem_headers_iff.2 (.inr hqs))

/-! ## Rewritings that keep the keyword -/

/-- The leading word stands before every span. -/
@[simp] theorem leadingWord_map_tidy (ps : List Piece) :
    leadingWord (ps.map tidy) = leadingWord ps := by
  induction ps with
  | nil => rfl
  | cons p ps ih =>
    cases p with
    | span e => rfl
    | point c => rw [List.map_cons, tidy_point, leadingWord, leadingWord, ih]

/-- The leading word stands before every blank. -/
@[simp] theorem leadingWord_squashAll (ps : List Piece) :
    leadingWord (squashAll ps) = leadingWord ps := by
  induction ps with
  | nil => rfl
  | cons p ps ih =>
    cases p with
    | span e => rfl
    | point c =>
      cases hc : isBlank c with
      | false => rw [squashAll_point_visible hc, leadingWord, leadingWord, ih]
      | true =>
        rw [leadingWord_of_not_wordChar (isWordChar_of_isBlank hc)]
        cases hps : startsBlank (sourceAll ps) with
        | false =>
          rw [squashAll_point_blank hc hps]
          rfl
        | true =>
          rw [squashAll_point_blank_blank hc hps, ih]
          cases ps with
          | nil => rfl
          | cons q ps =>
            cases q with
            | span e => rfl
            | point d => exact leadingWord_of_not_wordChar (isWordChar_of_isBlank hps) ps

/-- Tidying spans keeps the keyword. -/
theorem startsWith_map_tidy (hks : IsKeywordList ks) (ps : List Piece) :
    startsWith ks (ps.map tidy) = startsWith ks ps := by
  rw [Bool.eq_iff_iff, startsWith_iff hks, startsWith_iff hks]
  constructor
  · rintro ⟨qs, hps, hqs⟩
    obtain ⟨p, ps', rfl, hp, rfl⟩ := List.map_eq_cons_iff.1 hps
    cases p with
    | span e => simp [tidy] at hp
    | point c =>
      rw [tidy_point] at hp
      exact ⟨ps', by rw [hp], by rwa [leadingWord_map_tidy] at hqs⟩
  · rintro ⟨qs, rfl, hqs⟩
    exact ⟨qs.map tidy, rfl, by rwa [leadingWord_map_tidy]⟩

/-- Squashing blanks keeps the keyword, where it stands at the very start. -/
theorem startsWith_squashAll (hks : IsKeywordList ks)
    (hps : startsBlank (sourceAll ps) = false) :
    startsWith ks (squashAll ps) = startsWith ks ps := by
  cases ps with
  | nil => rfl
  | cons p ps =>
    cases p with
    | span e => rfl
    | point c =>
      rw [squashAll_point_visible hps, Bool.eq_iff_iff, startsWith_iff hks, startsWith_iff hks]
      simp only [List.cons.injEq]
      constructor
      · rintro ⟨qs, ⟨hc, rfl⟩, hqs⟩
        exact ⟨ps, ⟨hc, rfl⟩, by rwa [leadingWord_squashAll] at hqs⟩
      · rintro ⟨qs, ⟨hc, rfl⟩, hqs⟩
        exact ⟨_, ⟨hc, rfl⟩, by rwa [leadingWord_squashAll]⟩

end Directive

end TemplateLayout
