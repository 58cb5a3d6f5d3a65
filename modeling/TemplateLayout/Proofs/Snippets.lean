import TemplateLayout.Node.Loading
import TemplateLayout.Proofs.Lines
import TemplateLayout.Proofs.Reading
import TemplateLayout.Proofs.Windows

/-! # The caret of a snippet
A failure to read a text names its place by a line and a column that count line feeds, and the
snippet around the place is made of lines that every kind of break ends. Where every break before
the place is a line feed the two agree, and the caret stands under the character that could not be
read. Where there is another break, the line that is marked has ended before the place.

* `Snippet.CaretUnder` — a caret that stands under a character;
* `Text.exists_line_at` — the line that counting line feeds finds;
* `Node.ofJson_caret` — the snippet of a text that cannot be read.
-/

namespace TemplateLayout

variable {s text after : Text} {c : CodePoint} {e : ReadError}

/-! ## Carets -/

namespace Snippet

/-- The caret of a snippet stands **under** the character `c`: there is a line in error, and `c` is
the character of that line in the column of the caret. -/
def CaretUnder (s : Snippet) (c : CodePoint) : Prop :=
  ∃ (content : Text) (column : Nat),
    (s.errorLine, content) ∈ s.lines ∧ s.column = some (column : Int) ∧ content[column]? = some c

end Snippet

/-! ## The line of a place -/

namespace Text

/-- Counting line feeds before a place **finds the line of the place** where no other break stands
before it, and the column is then right. Else it finds a line that has ended before the place. -/
theorem exists_line_at (hc : isLineBreak c = false) (s t : Text) :
    ∃ content, (splitLines (s ++ c :: t))[s.count (.char '\n')]? = some content ∧
      (onlyLineFeeds s = true →
        content[(s.reverse.takeWhile (· != .char '\n')).length]? = some c) ∧
      (onlyLineFeeds s = false → ∃ a d b, s = a ++ content ++ d :: b ∧ isLineBreak d = true) := by
  obtain ⟨ls, u, h⟩ := exists_lined s
  obtain ⟨m, ms, hm⟩ := exists_splitLines_append h.unbroken hc t
  have hhead : (c :: t).head? ≠ some (.char '\n') := by
    intro hhead
    obtain rfl : c = .char '\n' := Option.some.inj hhead
    exact absurd hc (by decide)
  have hlines : splitLines (s ++ c :: t) = ls ++ (u ++ c :: m) :: ms := by
    rw [h.splitLines_append hhead, hm]
  rw [hlines]
  cases hs : onlyLineFeeds s with
  | true =>
    -- All lines before the place are counted, and the last part begins the line of the place.
    refine ⟨u ++ c :: m, ?_, fun _ => ?_, fun hs' => absurd hs' Bool.noConfusion⟩
    · rw [h.count_lineFeed_eq_iff.2 hs, List.getElem?_append_right (Nat.le_refl _), Nat.sub_self]
      rfl
    · rw [h.takeWhile_reverse hs, List.length_reverse,
        List.getElem?_append_right (Nat.le_refl _), Nat.sub_self]
      rfl
  | false =>
    have hlt : s.count (.char '\n') < ls.length := by
      refine Nat.lt_of_le_of_ne h.count_lineFeed_le fun heq => ?_
      rw [h.count_lineFeed_eq_iff, hs] at heq
      exact Bool.noConfusion heq
    have hline : ls[s.count (.char '\n')]? = some ls[s.count (.char '\n')] :=
      List.getElem?_eq_getElem hlt
    refine ⟨_, ?_, fun hs' => absurd hs' Bool.noConfusion, fun _ => h.exists_break hline⟩
    rw [List.getElem?_append_left hlt, hline]

end Text

/-! ## Texts that cannot be read -/

/-- A letter that begins no value is refused behind the blanks before it. -/
theorem Value.read_letter (h : Value.skipBlanks s = "x".toText) :
    Value.read s = .error ⟨.value, "x".toText⟩ := by
  have hmark : ¬[CodePoint.char '\uFEFF'].isPrefixOf s = true := by
    rw [List.isPrefixOf_iff_prefix]
    rintro ⟨t, rfl⟩
    exact absurd (List.cons.inj h).1 (by decide)
  have htake : Value.takeValue "x".toText = .error ⟨.value, "x".toText⟩ := by
    rw [Value.takeValue]
    · rfl
    all_goals rintro r ⟨⟩
  rw [Value.read, if_neg hmark, h, htake]
  rfl

namespace Node

open Text

theorem value_ofJson_of_read (hread : Value.read text = .error e) :
    (ofJson text).run.value = .error (.unreadable text e) := by
  rw [ofJson, hread]
  rfl

/-- **The caret of an unreadable text.** The error has a snippet whose line in error and column are
those of the place, counted in line feeds. A line with that number is shown. If every break before
the place is a line feed, the caret stands under the character at the place; else the line in error
and a break behind it stand before the place. -/
theorem ofJson_caret (hread : Value.read text = .error e) (hrest : e.rest = c :: after)
    (hc : isLineBreak c = false) :
    text = e.before text ++ c :: after ∧
      ∃ err tree snippet, (ofJson text).run.value = .error err ∧ err.treeError? = some tree ∧
        tree.snippet = some snippet ∧
        snippet.errorLine = (e.before text).count (.char '\n') + 1 ∧
        snippet.column =
          some (((e.before text).reverse.takeWhile (· != .char '\n')).length : Int) ∧
        (onlyLineFeeds (e.before text) = true → snippet.CaretUnder c) ∧
        (onlyLineFeeds (e.before text) = false →
          ∃ content, (snippet.errorLine, content) ∈ snippet.lines ∧
            ∃ a d b, e.before text = a ++ content ++ d :: b ∧ isLineBreak d = true) := by
  have htext : e.before text ++ c :: after = text := by
    rw [← hrest, ReadError.before_append_rest (Value.suffix_of_read hread)]
  obtain ⟨content, hcontent, hregular, hother⟩ := exists_line_at hc (e.before text) after
  rw [htext] at hcontent
  have hshown : ((e.line text : Int), content) ∈
      Snippet.window text (e.line text) Snippet.defaultContext :=
    Snippet.mem_window_iff.2 ⟨_, rfl, hcontent, Int.sub_le_self _ (by decide),
      Int.le_add_of_nonneg_right (by decide)⟩
  exact ⟨htext.symm, _, _, _, value_ofJson_of_read hread, rfl, rfl, rfl, rfl,
    fun h => ⟨content, _, hshown, rfl, hregular h⟩, fun h => ⟨content, hshown, hother h⟩⟩

/-- A letter in the place of a value, on a line behind a carriage return and a line feed. -/
theorem ofJson_caret_letter :
    Value.read "\r\n x".toText = .error ⟨.value, "x".toText⟩ ∧
      onlyLineFeeds "\r\n ".toText = true ∧
      ∃ err tree snippet, (ofJson "\r\n x".toText).run.value = .error err ∧
        err.treeError? = some tree ∧ tree.snippet = some snippet ∧ snippet.errorLine = 2 ∧
        snippet.column = some 1 ∧ snippet.CaretUnder (.char 'x') := by
  have hread : Value.read "\r\n x".toText = .error ⟨.value, "x".toText⟩ :=
    Value.read_letter (by decide)
  obtain ⟨-, err, tree, snippet, hfail, htree, hsnippet, hline, hcolumn, hunder, -⟩ :=
    ofJson_caret hread rfl (by decide)
  exact ⟨hread, by decide, err, tree, snippet, hfail, htree, hsnippet, hline, hcolumn,
    hunder (by decide)⟩

/-- A carriage return ends a line and is no line feed: behind two of them the line in error is
empty, and the caret stands in the third column. -/
theorem caret_behind_carriageReturns :
    Value.read "\r\rx".toText = .error ⟨.value, "x".toText⟩ ∧
      ∃ err tree snippet, (ofJson "\r\rx".toText).run.value = .error err ∧
        err.treeError? = some tree ∧ tree.snippet = some snippet ∧
        snippet = ⟨[(1, []), (2, []), (3, "x".toText)], 1, some 2⟩ ∧
        ¬snippet.CaretUnder (.char 'x') := by
  have hread : Value.read "\r\rx".toText = .error ⟨.value, "x".toText⟩ :=
    Value.read_letter (by decide)
  refine ⟨hread, _, _, _, value_ofJson_of_read hread, rfl, rfl, by decide, ?_⟩
  rintro ⟨content, column, hcontent, hcolumn, hc⟩
  obtain rfl : column = 2 := Int.ofNat.inj (Option.some.inj hcolumn).symm
  obtain ⟨k, hk, hsplit, -⟩ := Snippet.mem_window_iff.1 hcontent
  obtain rfl : k = 0 := by
    have hk : (1 : Int) = k + 1 := hk
    omega
  obtain rfl := Option.some.inj hsplit
  exact absurd hc (by decide)

end Node

end TemplateLayout
