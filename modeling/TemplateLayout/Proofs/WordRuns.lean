import TemplateLayout.Proofs.HeaderLines

/-! # Words of header lines
A header line puts a space between the keyword and the condition. Blanks divide words already, and
the keyword is a whole word, so the words stay, with one exception. The qualifier `if` is recognised
by its two letters alone, whatever follows them, and where a word merely begins with them the space
goes into that word.

* `Text.wordRuns` — the maximal runs of word characters;
* `Text.wordRuns_collapse` — collapsing keeps them;
* `Header.runsOn` — a word that begins with the letters of the qualifier;
* `Header.wordRuns_line` — the words of a header and of its line.
-/

namespace TemplateLayout

open Directive

/-! ## Runs of word characters -/

namespace Text

variable {s t b : Text} {c : CodePoint}

/-- The **word runs** of a text: its maximal runs of word characters, in order. -/
def wordRuns (s : Text) : List Text :=
  (s.splitOnP fun c => !isWordChar c).filter fun run => !run.isEmpty

@[simp] theorem wordRuns_nil : wordRuns [] = [] := rfl

/-- **Anything but a word character divides runs.** -/
theorem wordRuns_append_cons (hc : isWordChar c = false) (s t : Text) :
    wordRuns (s ++ c :: t) = wordRuns s ++ wordRuns t := by
  have hsplit : (!isWordChar c) = true := by rw [hc]; rfl
  unfold wordRuns
  rw [List.splitOnP_append_cons s t hsplit, List.filter_append]

theorem wordRuns_cons (hc : isWordChar c = false) (s : Text) : wordRuns (c :: s) = wordRuns s :=
  wordRuns_append_cons hc [] s

/-- Before a text that begins with no word character a run ends. -/
theorem wordRuns_append (ht : t.head?.any isWordChar = false) (s : Text) :
    wordRuns (s ++ t) = wordRuns s ++ wordRuns t := by
  cases t with
  | nil => simp
  | cons c t =>
    have hc : isWordChar c = false := ht
    rw [wordRuns_append_cons hc, wordRuns_cons hc]

/-- Blanks before a text keep word characters from its front. -/
theorem head?_any_append_of_allBlank (hb : allBlank b = true)
    (h : b = [] → t.head?.any isWordChar = false) : (b ++ t).head?.any isWordChar = false := by
  cases b with
  | nil => exact h rfl
  | cons c b => exact isWordChar_of_isBlank (Bool.and_eq_true_iff.1 hb).1

/-- Word characters alone are one run. -/
theorem wordRuns_of_all (hne : s ≠ []) (hs : s.all isWordChar = true) : wordRuns s = [s] := by
  have hsplit : s.splitOnP (fun c => !isWordChar c) = [s] := by
    refine List.splitOnP_eq_singleton fun c hc => ?_
    rw [List.all_eq_true.1 hs c hc]
    rfl
  rw [wordRuns, hsplit]
  simp [hne]

theorem flatMap_consRun (run : Text) (rest : List Text) :
    (consRun run rest).flatMap wordRuns = wordRuns run ++ rest.flatMap wordRuns := by
  unfold consRun
  split
  · next hempty => rw [List.isEmpty_iff.1 hempty]; rfl
  · rfl

/-- A run of word characters goes on into the first of the words behind it, and no further. -/
theorem wordRuns_append_splitRuns (s t : Text) :
    wordRuns (s ++ t) =
      wordRuns (s ++ (splitRuns t).1) ++ (splitRuns t).2.flatMap wordRuns := by
  induction t generalizing s with
  | nil => simp [splitRuns]
  | cons c t ih =>
    cases hc : isBlank c with
    | true =>
      have ih := ih []
      rw [List.nil_append, List.nil_append] at ih
      simp only [splitRuns, hc, if_true, List.append_nil]
      rw [wordRuns_append_cons (isWordChar_of_isBlank hc), ih, flatMap_consRun]
    | false =>
      have hcons (r : Text) : s ++ c :: r = s ++ [c] ++ r := by simp
      simp only [splitRuns, hc, Bool.false_eq_true, if_false]
      rw [hcons, ih, ← hcons]

/-- **The word runs of a text are those of its words**, one after the other. -/
theorem wordRuns_eq_flatMap_words (s : Text) : wordRuns s = (words s).flatMap wordRuns := by
  have h := wordRuns_append_splitRuns [] s
  rw [List.nil_append, List.nil_append] at h
  rw [h, words_eq_consRun, flatMap_consRun]

/-- Texts with the same words have the same word runs. -/
theorem wordRuns_congr (h : words s = words t) : wordRuns s = wordRuns t := by
  rw [wordRuns_eq_flatMap_words, h, ← wordRuns_eq_flatMap_words]

/-- Collapsing keeps the word runs. -/
theorem wordRuns_collapse (s : Text) : wordRuns (collapse s) = wordRuns s :=
  wordRuns_congr (words_collapse s)

end Text

/-! ## Headers -/

namespace Header

open Text Piece Fragment

variable {t v name y b c e : Text}

/-- Neither the `@` nor the brace of a header belongs to a word. -/
theorem wordRuns_enclose (s : Text) : wordRuns (enclose s) = wordRuns s := by
  rw [enclose, wordRuns_cons (by decide +kernel), wordRuns_append_cons isWordChar_openBrace,
    wordRuns_nil, List.append_nil]

/-- Whether **a word begins with the letters of the qualifier** and goes on behind them, where the
qualifier may stand: behind the keyword and blanks. -/
def runsOn (v : Text) : Bool :=
  let rest := ((collapse v).drop 1).dropWhile isWordChar
  let word := rest.dropWhile isBlank
  startsBlank rest && "if".toText.isPrefixOf word && (word.drop 2).head?.any isWordChar

/-- What begins with no word character completes no qualifier. -/
theorem isPrefixOf_append (ht : t.head?.any isWordChar = false)
    (hc : "if".toText.isPrefixOf c = false) : "if".toText.isPrefixOf (c ++ t) = false := by
  have hfront (d : CodePoint) (r : Text) (hd : isWordChar d = true) : d :: r ≠ t := by
    rintro rfl
    rw [List.head?_cons, Option.any_some, hd] at ht
    exact absurd ht.symm Bool.false_ne_true
  refine eq_false_of_ne_true fun h => ?_
  obtain ⟨r, hr⟩ := List.isPrefixOf_iff_prefix.1 h
  match c with
  | [] => exact hfront (.char 'i') _ (by decide +kernel) hr
  | [d] => exact hfront (.char 'f') r (by decide +kernel) (List.cons.inj hr).2
  | d :: d' :: c => exact absurd (hc.symm.trans h) Bool.false_ne_true

/-- **The qualifier runs on** exactly where a word character stands behind it; without a qualifier
none stands behind the keyword. -/
theorem IsParts.runsOn_eq (h : IsParts name y b c) (he : allBlank e = true)
    (hv : collapse v = enclose (name ++ (y ++ (b ++ c)) ++ e)) :
    runsOn v = (b ++ c).head?.any isWordChar := by
  -- Behind the condition stands a blank or the brace.
  have hend : (e ++ [CodePoint.char '{']).head?.any isWordChar = false :=
    head?_any_append_of_allBlank he fun _ => isWordChar_openBrace
  have hbrace : trimLeft (e ++ [.char '{']) = [.char '{'] := by rw [trimLeft_append he]; rfl
  have hbody : (collapse v).drop 1 = name ++ (y ++ (b ++ c ++ (e ++ [.char '{']))) := by
    rw [hv, enclose]
    simp
  generalize e ++ [.char '{'] = t at hend hbrace hbody
  have hhead : (b ++ c ++ t).head?.any isWordChar = (b ++ c).head?.any isWordChar := by
    cases hbc : b ++ c with
    | nil => exact hend
    | cons d r => rfl
  rcases h.qualifier with rfl | ⟨g, hg, hne, rfl⟩
  · obtain ⟨-, hdrop⟩ := takeWhile_word h.word (hhead.trans (h.complete rfl))
    have hword : "if".toText.isPrefixOf (trimLeft (b ++ c ++ t)) = false := by
      rw [List.append_assoc, trimLeft_append h.gap]
      by_cases hc : c = []
      · rw [hc, List.nil_append, hbrace]
        decide
      · rw [trimLeft_eq_self (by rw [startsBlank_append hc, h.condition])]
        exact isPrefixOf_append hend (h.unqualified rfl)
    rw [trimLeft] at hword
    rw [runsOn, hbody, List.nil_append, hdrop, hword, Bool.and_false, Bool.false_and,
      h.complete rfl]
  · obtain ⟨-, hdrop⟩ := takeWhile_word h.word (t := g ++ ("if".toText ++ (b ++ c ++ t)))
      (head?_any_append_of_allBlank hg fun hnil => absurd hnil hne)
    have hif : startsBlank ("if".toText ++ (b ++ c ++ t)) = false := by
      rw [startsBlank_append (by decide)]
      decide
    have hprefix : "if".toText.isPrefixOf ("if".toText ++ (b ++ c ++ t)) = true :=
      List.isPrefixOf_iff_prefix.2 (List.prefix_append _ _)
    have hdrop2 : ("if".toText ++ (b ++ c ++ t)).drop 2 = b ++ c ++ t := rfl
    rw [runsOn, hbody, List.append_assoc g, hdrop, (takeWhile_blank hg hif).2,
      startsBlank_append hne, startsBlank_of_allBlank hg hne, hprefix, hdrop2, hhead]
    rfl

/-- The word runs of the parts, where no word character stands before the condition. -/
theorem IsParts.wordRuns_eq (h : IsParts name y b c)
    (hbc : (b ++ c).head?.any isWordChar = false) :
    wordRuns (name ++ (y ++ (b ++ c))) = wordRuns (name ++ y) ++ wordRuns c := by
  rw [← List.append_assoc, wordRuns_append hbc, wordRuns_congr (words_append_left h.gap c)]

/-- **Where the qualifier runs on it is part of a word**, which is divided when the parts are
written with a space between them. -/
theorem IsParts.exists_wordRuns (h : IsParts name y b c) (hname : name ≠ [])
    (hbc : (b ++ c).head?.any isWordChar = true) :
    ∃ x ws, x ≠ [] ∧ wordRuns (name ++ (y ++ (b ++ c))) = name :: ("if".toText ++ x) :: ws ∧
      wordRuns (name ++ y) ++ wordRuns c = name :: "if".toText :: x :: ws := by
  -- There is a qualifier, and no blank stands behind it.
  obtain ⟨g, hg, hne, rfl⟩ := h.qualifier.resolve_left fun hy => by
    rw [h.complete hy] at hbc
    exact absurd hbc Bool.false_ne_true
  have hb : b = [] := by
    cases b with
    | nil => rfl
    | cons d b =>
      rw [List.cons_append, List.head?_cons, Option.any_some,
        isWordChar_of_isBlank (Bool.and_eq_true_iff.1 h.gap).1] at hbc
      exact absurd hbc Bool.false_ne_true
  rw [hb, List.nil_append] at hbc ⊢
  -- The rest of the word is what the condition begins with.
  have hc := List.takeWhile_append_dropWhile (p := isWordChar) (l := c)
  have hx := all_takeWhile isWordChar c
  have hrest := head?_dropWhile_any isWordChar c
  have hxne : c.takeWhile isWordChar ≠ [] := by
    cases c with
    | nil => exact absurd hbc Bool.false_ne_true
    | cons d c =>
      have hd : isWordChar d = true := hbc
      simp [hd]
  generalize c.takeWhile isWordChar = x at hc hx hxne
  generalize c.dropWhile isWordChar = r at hc hrest
  subst hc
  have hgap (t : Text) : wordRuns (name ++ (g ++ t)) = name :: wordRuns t := by
    have hhead : (g ++ t).head?.any isWordChar = false :=
      head?_any_append_of_allBlank hg fun hnil => absurd hnil hne
    rw [wordRuns_append hhead, wordRuns_of_all hname h.word,
      wordRuns_congr (words_append_left hg t)]
    rfl
  have hif : "if".toText.all isWordChar = true := by decide +kernel
  have hlong : ("if".toText ++ x).all isWordChar = true := by rw [List.all_append, hif, hx]; rfl
  refine ⟨x, wordRuns r, hxne, ?_, ?_⟩
  · rw [List.append_assoc g, hgap, ← List.append_assoc "if".toText, wordRuns_append hrest,
      wordRuns_of_all (by simp [hxne]) hlong]
    rfl
  · rw [hgap, wordRuns_append hrest, wordRuns_of_all (by decide) hif, wordRuns_of_all hxne hx]
    rfl

/-- **The parts of a header and of its line**: the line differs in the gap before the condition, and
in the blanks before the brace. -/
theorem exists_line_parts (hv : IsHeader v) :
    ∃ name y b c e, IsParts name y b c ∧ name ≠ [] ∧ allBlank e = true ∧
      collapse v = enclose (name ++ (y ++ (b ++ c)) ++ e) ∧
      (line v []).value = enclose (name ++ (y ++ (gapFor c ++ c)) ++ [.char ' ']) := by
  obtain ⟨s, rfl, hs, hword⟩ := isHeader_iff.1 hv
  have hlead : leadingWord (lex s) ≠ [] := by
    intro hnil
    rw [hnil] at hword
    exact absurd hword (by decide)
  obtain ⟨name, y, b, c, hparts, hcollapse⟩ := exists_parts (collapse s)
  obtain ⟨e, he, hsquash, -⟩ := exists_trimRight (squash s)
  have htrim : trimRight (squash s) = collapse s := by
    rw [trimRight_squash, collapse_eq_squash_trim, trim,
      trimLeft_eq_self (startsBlank_of_leadingWord hlead)]
  refine ⟨name, y, b, c, e, hparts, ?_, he, ?_, ?_⟩
  · rwa [← hparts.leadingWord_eq, ← hcollapse, leadingWord_lex_collapse hlead]
  · rw [collapse_enclose, ← hcollapse, ← htrim, ← hsquash]
  · rw [value_line, List.nil_append, spoken_of_read (read_enclose hs.unopened hlead),
      hcollapse, hparts.ofBody_eq, write_parts]

/-- **The words of a header line.** They are the words of the header, unless a word begins with the
letters of the qualifier where the qualifier may stand: that word, the second one, is divided behind
them. -/
theorem wordRuns_line (s : Text) (hv : .header v ∈ segment s) :
    (runsOn v = false → wordRuns (line v []).value = wordRuns v) ∧
      (runsOn v = true → ∃ name x ws, x ≠ [] ∧
        wordRuns v = name :: ("if".toText ++ x) :: ws ∧
        wordRuns (line v []).value = name :: "if".toText :: x :: ws) := by
  obtain ⟨gs, hsettled⟩ := (settled_segment s).exists_of_mem hv
  obtain ⟨name, y, b, c, e, hparts, hname, he, hcollapse, hline⟩ :=
    exists_line_parts hsettled.1.1
  have hbefore : wordRuns v = wordRuns (name ++ (y ++ (b ++ c))) := by
    rw [← wordRuns_collapse, hcollapse, wordRuns_enclose, wordRuns_congr (words_append_right he _)]
  have hafter : wordRuns (line v []).value = wordRuns (name ++ y) ++ wordRuns c := by
    have hgap : (gapFor c ++ c).head?.any isWordChar = false := by
      cases c with
      | nil => rfl
      | cons d c => exact isWordChar_of_isBlank isBlank_space
    rw [hline, wordRuns_enclose, wordRuns_congr (words_append_right (by decide) _),
      hparts.respace.wordRuns_eq hgap]
  rw [hparts.runsOn_eq he hcollapse, hbefore, hafter]
  refine ⟨fun hbc => (hparts.wordRuns_eq hbc).symm, fun hbc => ?_⟩
  obtain ⟨x, ws, hx, hruns, hdivided⟩ := hparts.exists_wordRuns hname hbc
  exact ⟨name, x, ws, hx, hruns, hdivided⟩

/-- A qualifier that ends before a bracket. -/
theorem wordRuns_line_qualified :
    .header "@else   if(a)\x7b".toText ∈ segment "@else   if(a)\x7b".toText ∧
      wordRuns (line "@else   if(a)\x7b".toText []).value =
        wordRuns "@else   if(a)\x7b".toText := by
  have hv : .header "@else   if(a)\x7b".toText ∈ segment "@else   if(a)\x7b".toText := by
    decide +kernel
  exact ⟨hv, (wordRuns_line _ hv).1 (by decide +kernel)⟩

/-- **A word that begins with the letters of the qualifier is divided** by the line of its
header. -/
theorem wordRuns_line_divided :
    .header "@else ifx \x7b".toText ∈ segment "@else ifx \x7b".toText ∧
      wordRuns "@else ifx \x7b".toText = ["else".toText, "ifx".toText] ∧
      wordRuns (line "@else ifx \x7b".toText []).value =
        ["else".toText, "if".toText, "x".toText] := by
  decide +kernel

end Header

end TemplateLayout
