import TemplateLayout.Proofs.Openings

/-! # Cutting and writing headers agree
Cutting a text and writing a header line look for the block brace separately, one in the text as it
was given and one in the collapsed fragment, and they do not treat closers alike. They agree all the
same on everything that is cut out: a header is read up to its last character, so its line loses
nothing, and plain text that passes for a directive is read as no header, so it is written whole.

* `Fragment.Settled.exists_of_mem` — each of settled fragments is settled before those after it;
* `Header.exists_body` — the search for the brace of a header ends at its last piece;
* `Header.line_of_mem_segment` — what is written for the fragments of a text.
-/

namespace TemplateLayout

open Text Piece Directive Fragment

variable {v : Text} {f : Fragment} {fs : List Fragment}

/-- Each of settled fragments is settled before those after it. -/
theorem Fragment.Settled.exists_of_mem (h : Settled fs) (hf : f ∈ fs) :
    ∃ gs, Settled (f :: gs) := by
  obtain ⟨l, gs, rfl⟩ := List.append_of_mem hf
  exact ⟨gs, h.right⟩

namespace Header

/-- **A header is read up to its last piece.** All of the collapsed text between the `@` and that
piece is the body which the keyword and the condition are found in. -/
theorem exists_body (hv : IsHeader v) :
    ∃ body, lex (collapse v) = .char '@' :: (body ++ [.char '{']) ∧
      beforeBrace (body ++ [.char '{']) = some body ∧
      read v = some (ofBody (trimRight (sourceAll body))) := by
  obtain ⟨s, rfl, hs, hword⟩ := isHeader_iff.1 hv
  have hlex : lex (collapse (enclose s)) = .char '@' :: (lex (squash s) ++ [.char '{']) := by
    rw [collapse_enclose, lex_enclose hs.unopened.squash]
  have hbrace : beforeBrace (lex (squash s) ++ [.char '{']) = some (lex (squash s)) :=
    beforeBrace_append hs.unopened.squash
  refine ⟨lex (squash s), hlex, hbrace, ?_⟩
  -- Reading asks for a word character behind the `@`, and the keyword begins with one.
  have hne : leadingWord (lex (squash s)) ≠ [] := by
    intro hnil
    rw [lex_squash, leadingWord_squashAll] at hnil
    rw [hnil] at hword
    exact absurd hword (by decide)
  obtain ⟨c, qs, hqs, hc⟩ := exists_point_of_leadingWord hne
  rw [hqs] at hlex hbrace ⊢
  rw [List.cons_append] at hlex hbrace
  rw [read, hlex, ofPieces, if_pos hc, hbrace]
  rfl

/-- A header opens a block or continues one. -/
theorem isOpener_or_isChain (hv : IsHeader v) : isOpener v = true ∨ isChain v = true := by
  obtain ⟨s, rfl, hs, hword⟩ := isHeader_iff.1 hv
  rw [isOpener_enclose hs, isChain_enclose hs]
  exact mem_headers_iff.1 hword

/-- **What is written for the fragments of a text.** Each of its headers opens or continues a block,
is read as a header up to its last piece, and is written on one line that shows the indent and the
header and ends in the brace; nothing is noted. Plain text that passes for an opener or a
continuation is written behind the indent as it stands, and that is noted. -/
theorem line_of_mem_segment (s : Text) :
    (∀ v, .header v ∈ segment s →
        (isOpener v = true ∨ isChain v = true) ∧
        ∃ body, lex (collapse v) = .char '@' :: (body ++ [.char '{']) ∧
          beforeBrace (body ++ [.char '{']) = some body ∧
          read v = some (ofBody (trimRight (sourceAll body))) ∧
          ∀ indent, (line v indent).events = [] ∧
            visible (line v indent).value = visible (indent ++ v) ∧
            [.char ' ', .char '{'] <:+ (line v indent).value) ∧
      ∀ v, .plain v ∈ segment s → isOpener v = true ∨ isChain v = true →
        ∀ indent, line v indent = ⟨[.verbatimDirective v], indent ++ v⟩ := by
  refine ⟨fun v hv => ?_, fun v hv hkey indent => ?_⟩
  · obtain ⟨gs, hsettled⟩ := (settled_segment s).exists_of_mem hv
    obtain ⟨body, hlex, hbrace, hbody⟩ := exists_body hsettled.1.1
    obtain ⟨h, hread, -, hvisible, -⟩ := exists_read hsettled.1.1 hsettled.1.2
    refine ⟨isOpener_or_isChain hsettled.1.1, body, hlex, hbrace, hbody, fun indent => ?_⟩
    have hline : line v indent = pure (indent ++ h.write) := by rw [line, hread]
    rw [hline]
    refine ⟨rfl, ?_, h.brace_suffix_write.trans (List.suffix_append _ _)⟩
    rw [Logged.value_pure, visible_append, visible_append, hvisible]
  · obtain ⟨gs, hsettled⟩ := (settled_segment s).exists_of_mem hv
    rw [line, read_eq_none_of_isPlain hsettled.1 hkey, hsettled.1.trimmed]
    rfl

/-- A header, and plain text that passes for the continuation of its block. -/
theorem line_of_mem_segment_chain :
    .header "@if(a)\x7b".toText ∈ segment "@if(a)\x7b b \x7d @else c".toText ∧
      .plain "@else c".toText ∈ segment "@if(a)\x7b b \x7d @else c".toText ∧
      isChain "@else c".toText = true ∧
      ∀ indent, visible (line "@if(a)\x7b".toText indent).value =
          visible (indent ++ "@if(a)\x7b".toText) ∧
        line "@else c".toText indent =
          ⟨[.verbatimDirective "@else c".toText], indent ++ "@else c".toText⟩ := by
  have hheader : .header "@if(a)\x7b".toText ∈ segment "@if(a)\x7b b \x7d @else c".toText := by
    decide +kernel
  have hplain : .plain "@else c".toText ∈ segment "@if(a)\x7b b \x7d @else c".toText := by
    decide +kernel
  have hchain : isChain "@else c".toText = true := by decide +kernel
  obtain ⟨hheaders, hplains⟩ := line_of_mem_segment "@if(a)\x7b b \x7d @else c".toText
  obtain ⟨-, body, -, -, -, hline⟩ := hheaders _ hheader
  exact ⟨hheader, hplain, hchain,
    fun indent => ⟨(hline indent).2.1, hplains _ hplain (.inr hchain) indent⟩⟩

end Header

end TemplateLayout
