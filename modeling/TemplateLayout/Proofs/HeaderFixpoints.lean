import TemplateLayout.Proofs.Headers

/-! # Header lines are fixed points
A text written as a header line, and that line written once more, give one and the same line,
whatever the text is. Where a header is read, the part before its brace may hold anything but a
brace that opens: spans, closers, further words of the qualifier. Writing moves none of them over
the brace, so the line is read up to its own brace and falls into the same parts. Where no header is
read the line is the trimmed text, which is read as the text was.

* `Header.exists_of_beforeBrace` — where the search for the brace ends;
* `Header.exists_enclose_of_read` — what is read is the front of the collapsed text;
* `Header.read_write_of_read` — a header that was read is read back from its line;
* `Header.line_line` — writing a line twice.
-/

namespace TemplateLayout.Header

open Text Piece Directive

variable {s b name y c indent : Text} {h : Header} {ps body : List Piece}

/-! ## What is read -/

/-- The search for the brace ends at the first one that opens. -/
theorem exists_of_beforeBrace (hps : beforeBrace ps = some body) :
    ∃ rest, ps = body ++ .char '{' :: rest ∧ .char '{' ∉ body := by
  fun_induction beforeBrace ps generalizing body with
  | case1 => simp at hps
  | case2 => simp at hps
  | case3 ps =>
    obtain rfl := Option.some.inj hps
    exact ⟨ps, rfl, List.not_mem_nil⟩
  | case4 p ps _ hp ih =>
    obtain ⟨init, hinit, rfl⟩ := Option.map_eq_some_iff.1 hps
    obtain ⟨rest, rfl, hmem⟩ := ih hinit
    refine ⟨rest, rfl, ?_⟩
    rw [List.mem_cons]
    rintro (hbrace | hbrace)
    · exact hp hbrace.symm
    · exact hmem hbrace

/-- **What is read is the front of the collapsed text**, from an `@` to a brace. -/
theorem exists_enclose_of_read (hs : read s = some h) :
    ∃ x r, collapse s = enclose x ++ r ∧ Unopened x ∧ leadingWord (lex x) ≠ [] ∧
      h = ofBody (trimRight x) := by
  rw [read] at hs
  unfold ofPieces at hs
  split at hs
  · next d ps hlex =>
    split at hs
    · next hd =>
      obtain ⟨body, hbody, rfl⟩ := Option.map_eq_some_iff.1 hs
      obtain ⟨rest, hps, hopen⟩ := exists_of_beforeBrace hbody
      rw [hps] at hlex
      -- The pieces before the brace are those of the text that they write.
      have hlexed := lexed_lex (collapse s)
      rw [hlex] at hlexed
      have hbody' : lex (sourceAll body) = body := hlexed.tail.left.lex_sourceAll
      refine ⟨sourceAll body, sourceAll rest, ?_, by rwa [Unopened, hbody'], ?_, rfl⟩
      · rw [← sourceAll_lex (collapse s), hlex, sourceAll_cons, sourceAll_append, sourceAll_cons]
        simp [enclose, source]
      · rw [hbody']
        cases body with
        | nil =>
          -- The first piece is a word character, and the brace is none.
          rw [point.inj (List.cons.inj hps).1, isWordChar_openBrace] at hd
          exact absurd hd Bool.false_ne_true
        | cons p body =>
          rw [← (List.cons.inj hps).1, leadingWord_point hd]
          exact List.cons_ne_nil _ _
    · exact absurd hs (by simp)
  · exact absurd hs (by simp)

/-! ## What is read back -/

/-- Without its last blanks the front of a collapsed text is collapsed. -/
theorem collapse_trimRight_of_enclose {x r : Text} (hs : collapse s = enclose x ++ r)
    (hword : leadingWord (lex x) ≠ []) : collapse (trimRight x) = trimRight x := by
  obtain ⟨b, -, hx, hend⟩ := exists_trimRight x
  have hassoc : collapse s = [.char '@'] ++ (trimRight x ++ (b ++ (.char '{' :: r))) := by
    rw [hs, enclose]
    conv => lhs; rw [hx]
    simp
  have hsquash : squash (collapse s) = collapse s := by
    rw [collapse_eq_squash_trim, squash_squash]
  rw [hassoc] at hsquash
  rw [collapse_eq_squash (startsBlank_trimRight (startsBlank_of_leadingWord hword)) hend]
  exact squash_left_eq_self (squash_right_eq_self hsquash)

/-- Spans and braces stand in the condition only. -/
theorem IsParts.unopened_iff (h : IsParts name y b c) :
    Unopened (name ++ (y ++ (b ++ c))) ↔ Unopened c := by
  have hpre : Piece.char '{' ∉ (name ++ (y ++ b)).map .point := by
    intro hmem
    obtain ⟨d, hd, heq⟩ := List.mem_map.1 hmem
    rw [point.inj heq] at hd
    exact h.notMem isWordChar_openBrace isBlank_openBrace hd
  rw [Unopened, Unopened, h.lex_eq, List.mem_append]
  exact not_congr (or_iff_right hpre)

/-- **A header that was read is read back** from its line. -/
theorem read_write_of_read (hs : read s = some h) : read h.write = some h := by
  obtain ⟨x, r, hcollapse, hx, hword, rfl⟩ := exists_enclose_of_read hs
  have hfixed := collapse_trimRight_of_enclose hcollapse hword
  obtain ⟨e, he, hxe, -⟩ := exists_trimRight x
  generalize trimRight x = t at hfixed hxe
  subst hxe
  obtain ⟨name, y, b, c, hparts, rfl⟩ := exists_parts t
  -- The blanks at the end hold neither a brace nor a part of the keyword.
  have hname : name ≠ [] := by
    have hbound : atBoundary (e.map .point ++ []) = true := atBoundary_map_point_append he rfl
    rw [List.append_nil] at hbound
    rwa [Fragment.lex_append_blank he, leadingWord_append hbound, hparts.leadingWord_eq] at hword
  have hc : Unopened c := by
    rw [Unopened, Fragment.lex_append_blank he] at hx
    exact hparts.unopened_iff.1 fun hmem => hx (List.mem_append_left _ hmem)
  have hspace : allBlank [.char ' '] = true := by decide
  rw [hparts.ofBody_eq, write_parts, read_enclose,
    hparts.ofBody_collapse_respaced hname hfixed]
  · exact (hparts.respace.unopened_iff.2 hc).append (braceless_of_allBlank hspace).unopened
  · rw [Fragment.lex_append_blank hspace, leadingWord_append rfl, hparts.respace.leadingWord_eq]
    exact hname

/-! ## Writing a line twice -/

/-- Blanks at the ends of a text do not change what is read. -/
theorem read_blank_append_trim (hb : allBlank b = true) (s : Text) :
    read (b ++ trim s) = read s := by
  have hcollapse : collapse (b ++ trim s) = collapse s := by
    rw [collapse_eq_collapse_iff, words_append_left hb, words_trim]
  rw [read, hcollapse, read]

/-- What is said of a header line is the line itself. -/
theorem spoken_blank_append_spoken (hb : allBlank b = true) (s : Text) :
    spoken (b ++ spoken s) = spoken s := by
  cases hs : read s with
  | none =>
    rw [spoken_of_read_none hs, spoken_of_read_none, trim_append_left hb,
      trim_eq_self (startsBlank_trim s) (endsBlank_trim s)]
    rw [read_blank_append_trim hb, hs]
  | some h =>
    have hread : read (b ++ h.write) = some h := by
      rw [← read_write_of_read hs, read, read,
        collapse_eq_collapse_iff.2 (words_append_left hb h.write)]
    rw [spoken_of_read hs, spoken_of_read hread]

/-- **A header line stays as it is** when it is written as a header line again, whatever text it was
written for. -/
theorem line_line (s : Text) (hindent : allBlank indent = true) :
    (line (line s indent).value indent).value = (line s indent).value := by
  rw [value_line, value_line s, spoken_blank_append_spoken hindent]

/-- A word that is divided behind the qualifier, a closer and a span before the brace. -/
theorem line_line_divided :
    allBlank "  ".toText = true ∧
      (line "@else  ifx\x7d\x7b\x7bb\x7d\x7d\x7b c".toText "  ".toText).value =
        "  @else if x\x7d\x7b\x7bb\x7d\x7d \x7b".toText ∧
      (line (line "@else  ifx\x7d\x7b\x7bb\x7d\x7d\x7b c".toText "  ".toText).value
          "  ".toText).value =
        (line "@else  ifx\x7d\x7b\x7bb\x7d\x7d\x7b c".toText "  ".toText).value :=
  ⟨by decide, by decide +kernel, line_line _ (by decide)⟩

end TemplateLayout.Header
