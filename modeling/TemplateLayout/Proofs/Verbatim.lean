import TemplateLayout.Proofs.Indents

/-! # What is written as it stands
The attributes and comments of a tree and the runs of plain text in it are written as they stand,
one behind the other in document order. Blanks are put around them and never inside: a run that
stands where a block is opened or continued has no header in it to be rewritten.

A line is written unless it is blank, so it matters that a line with one of these texts in it shows.
The two facts go together through every layer of the layout.

* `Text.InOrder` — texts one behind the other in a text;
* `Text.Carries` — such texts in a text that shows if there are any;
* `Walk.carries_feed` — the fragments of a text node;
* `Tag.carries_opening`, `Tag.carries_empty`, `Tag.carries_around` — elements;
* `Node.carries_render`, `Node.carries_walk` — nodes and sequences of nodes;
* `Node.inOrder_formatDocument` — the law for documents.
-/

namespace TemplateLayout

open Text Directive

variable {s t v : Text} {vs us : List Text}

/-! ## Texts in a text -/

namespace Text

/-- Texts **lie in a text in order**: each begins where the one before it has ended, or later. -/
inductive InOrder : List Text → Text → Prop
  /-- No texts. -/
  | nil (s : Text) : InOrder [] s
  /-- The first text behind `s`, and the others behind it. -/
  | cons (s v : Text) {vs : List Text} {t : Text} (h : InOrder vs t) :
    InOrder (v :: vs) (s ++ (v ++ t))

namespace InOrder

/-- Anything may stand before. -/
theorem prepend (h : InOrder vs t) (s : Text) : InOrder vs (s ++ t) := by
  cases h with
  | nil => exact .nil _
  | cons u v h =>
    rw [← List.append_assoc]
    exact h.cons (s ++ u) v

theorem append (hs : InOrder vs s) (ht : InOrder us t) : InOrder (vs ++ us) (s ++ t) := by
  induction hs with
  | nil s => exact ht.prepend s
  | cons u v h ih =>
    rw [List.append_assoc, List.append_assoc]
    exact ih.cons u v

theorem of_isInfix (h : v <:+: s) : InOrder [v] s := by
  obtain ⟨u, t, rfl⟩ := h
  rw [List.append_assoc]
  exact (nil t).cons u v

end InOrder

/-- Texts on lines of their own. -/
theorem inOrder_joinLines (vs : List Text) (s : Text) :
    InOrder vs (joinLines (vs.map (s ++ ·))) := by
  induction vs with
  | nil => exact .nil _
  | cons v vs ih =>
    have hv : InOrder [v] (s ++ v) := .of_isInfix (List.suffix_append s v).isInfix
    cases vs with
    | nil => simpa using hv
    | cons v' vs =>
      rw [List.map_cons, List.map_cons, joinLines_cons_cons]
      exact hv.append (ih.prepend [.char '\n'])

/-- A text **carries** texts: they lie in it in order, and if there are any, the text shows. -/
structure Carries (vs : List Text) (s : Text) : Prop where
  /-- The texts lie in it. -/
  inOrder : InOrder vs s
  /-- It shows. -/
  shows : vs ≠ [] → allBlank s = false

namespace Carries

theorem nil (s : Text) : Carries [] s := ⟨.nil s, fun h => absurd rfl h⟩

theorem append (hs : Carries vs s) (ht : Carries us t) : Carries (vs ++ us) (s ++ t) where
  inOrder := hs.inOrder.append ht.inOrder
  shows := by
    intro h
    rw [allBlank_append, Bool.and_eq_false_iff]
    by_cases hvs : vs = []
    · rw [hvs, List.nil_append] at h
      exact .inr (ht.shows h)
    · exact .inl (hs.shows hvs)

/-- Anything may stand before. -/
theorem prepend (h : Carries vs t) (s : Text) : Carries vs (s ++ t) := (nil s).append h

/-- Anything may stand behind. -/
theorem behind (h : Carries vs s) (t : Text) : Carries vs (s ++ t) := by
  simpa using h.append (nil t)

/-- A blank text carries nothing. -/
theorem eq_nil (h : Carries vs s) (hs : allBlank s = true) : vs = [] := by
  by_contra hvs
  rw [h.shows hvs] at hs
  exact Bool.false_ne_true hs

end Carries

end Text

/-! ## Fragments -/

namespace Fragment

variable {f : Fragment} {fs : List Fragment}

/-- A fragment carries its text, if it is plain. -/
theorem Settled.carries_value (h : Settled (f :: fs)) : Carries f.plain?.toList f.value where
  inOrder := by
    cases f with
    | plain v => exact .of_isInfix (List.infix_refl v)
    | header v => exact .nil _
    | close => exact .nil _
  shows := fun _ => h.not_allBlank

/-- So does what a fragment says that opens or continues a block. -/
theorem Settled.carries_spoken (h : Settled (f :: fs))
    (hkey : isOpener f.value = true ∨ isChain f.value = true) :
    Carries f.plain?.toList (Header.spoken f.value) where
  inOrder := by
    cases hv : f.plain? with
    | none => exact .nil _
    | some v => exact .of_isInfix (Draft.infix_spoken h hkey hv)
  shows := fun _ => Header.not_allBlank_spoken h.not_allBlank

end Fragment

/-! ## Walks -/

namespace Walk

open Fragment

variable {w : Walk} {f : Fragment} {fs : List Fragment}

/-- A line is written below the others. -/
theorem carries_write (h : Carries vs (joinLines w.lines)) (hs : Carries us s) :
    Carries (vs ++ us) (joinLines (w.write s).lines) := by
  rw [lines_write]
  by_cases hlines : w.lines = []
  · -- The first line has no line feed before it, and nothing can have been carried so far.
    obtain rfl : vs = [] := h.eq_nil (by rw [hlines]; rfl)
    simpa [hlines] using hs
  · rw [joinLines_append hlines (List.cons_ne_nil _ _), joinLines_singleton]
    exact h.append (hs.prepend [.char '\n'])

/-- A line that is not written carries nothing. -/
theorem carries_emit (h : Carries vs (joinLines w.lines)) (hs : Carries us s) :
    Carries (vs ++ us) (joinLines (w.emit s).lines) := by
  unfold emit
  split
  · next hblank =>
    rw [hs.eq_nil hblank, List.append_nil]
    exact h
  · exact carries_write h hs

/-- **One fragment is placed** with its text as it stands, if it is plain. -/
theorem carries_place (h : Carries vs (joinLines w.lines)) (hf : Settled (f :: fs)) :
    Carries (vs ++ f.plain?.toList) (joinLines (w.place f.value).value.lines) := by
  rw [value_place hf]
  split
  · next hopener => exact carries_write h ((hf.carries_spoken (.inl hopener)).prepend w.indent)
  · exact carries_write h (hf.carries_value.prepend w.indent)

/-- The end of a block is a line of its own. -/
theorem carries_endBlock (h : Carries vs (joinLines w.lines)) (b : Block) (stack : BlockStack) :
    Carries vs (joinLines (w.endBlock b stack).lines) := by
  have hwrite := carries_write h (.nil (b.indent ++ [.char '}']))
  rwa [List.append_nil] at hwrite

/-- **A block is continued** with the text of the continuation as it stands, if it is plain. -/
theorem carries_continueBlock (h : Carries vs (joinLines w.lines)) (hf : Settled (f :: fs))
    (hchain : isChain f.value = true) (b : Block) (stack : BlockStack) :
    Carries (vs ++ f.plain?.toList) (joinLines
      (w.continueBlock b stack f.value (Header.spoken f.value)).lines) :=
  carries_write h ((hf.carries_spoken (.inr hchain)).prepend (b.indent ++ [.char '}', .char ' ']))

/-- **Fragments are fed** with the text of the plain ones as it stands. -/
theorem carries_feed (h : Carries vs (joinLines w.lines)) (hfs : Settled fs) :
    Carries (vs ++ fs.filterMap plain?) (joinLines (feed fs w).value.lines) := by
  -- Along the steps of the walk; only the closer with a continuation takes two fragments at once.
  fun_induction feed fs w generalizing vs with
  | case1 w => simpa using h
  | case2 fs w hw ih => exact ih h hfs.tail
  | case3 w b stack hw =>
    have hplain : [Fragment.close].filterMap plain? = [] := rfl
    rw [hplain, List.append_nil]
    exact carries_endBlock h b stack
  | case4 w b stack hw f rest hchain ih =>
    have hplain : (.close :: f :: rest).filterMap plain? =
        f.plain?.toList ++ rest.filterMap plain? := filterMap_plain?_cons f rest
    rw [Logged.value_bind, Header.value_line, List.nil_append, hplain, ← List.append_assoc]
    exact ih _ (carries_continueBlock h hfs.tail hchain b stack) hfs.tail.tail
  | case5 w b stack hw f rest hchain ih => exact ih (carries_endBlock h b stack) hfs.tail
  | case6 f fs w hf ih =>
    rw [Logged.value_bind, filterMap_plain?_cons, ← List.append_assoc]
    exact ih _ (carries_place h hfs) hfs.tail

end Walk

/-! ## Tags -/

namespace Tag

variable {lines : List Text}

theorem inOrder_attributes (attrs : List Attribute) (indent : Text) :
    InOrder (attrs.map Attribute.write) (attributes attrs indent) := by
  match attrs with
  | [] => exact .nil _
  | [a] => exact .of_isInfix (List.suffix_cons _ _).isInfix
  | a :: a' :: as =>
    have hlines := inOrder_joinLines ((a :: a' :: as).map Attribute.write) indent
    rw [List.map_map] at hlines
    exact hlines.prepend [.char '\n']

/-- **The opening tag** carries the attributes. -/
theorem carries_opening (name : Text) (attrs : List Attribute) (content : Bool) (indent : Text) :
    Carries (attrs.map Attribute.write) (opening name attrs content indent) where
  inOrder := by
    rw [opening, ← List.append_nil (attrs.map Attribute.write)]
    exact ((inOrder_attributes attrs _).prepend (indent ++ .char '<' :: name)).append (.nil _)
  shows := by
    intro _
    rw [opening, List.append_assoc, List.append_assoc, List.cons_append, allBlank_append,
      not_allBlank_tag, Bool.and_false]

/-- **An element without content** carries its attributes. -/
theorem carries_empty (name : Text) (attrs : List Attribute) (indent : Text) :
    Carries (attrs.map Attribute.write) (Tag.empty name attrs indent) := by
  have hopening := carries_opening name attrs false indent
  unfold Tag.empty
  split
  · exact hopening
  · split
    · exact hopening.behind _
    · rw [List.append_assoc]
      exact hopening.behind _

/-- **An element around its content** carries its attributes and what the content does. -/
theorem carries_around (name : Text) (attrs : List Attribute) (indent : Text)
    (h : Carries vs (joinLines lines)) :
    Carries (attrs.map Attribute.write ++ vs) (around name attrs indent lines) := by
  have hcontent := (carries_opening name attrs true indent).append (h.prepend [.char '\n'])
  rw [around, List.append_assoc]
  exact hcontent.behind _

end Tag

/-! ## Nodes -/

namespace Node

open Walk

mutual

/-- **A rendered node** carries what the node has written as it stands. -/
theorem carries_render {limit depth : Nat} {indent out : Text} (n : Node) (hn : n.text? = none)
    (h : (render limit n indent depth).run.value = .ok out) : Carries n.verbatim out := by
  match n with
  | .element name attrs children =>
    rw [render] at h
    split at h
    · exact absurd h (Logged.value_throw_ne_ok _ _)
    · rw [verbatim]
      split at h
      · next hname =>
        rw [if_pos hname]
        exact .nil _
      · next hname =>
        rw [if_neg hname]
        split at h
        · obtain ⟨w, hwalk, h⟩ := Logged.value_bind_eq_ok_iff.1 h
          obtain ⟨lines, hlines, h⟩ := Logged.value_bind_eq_ok_iff.1 h
          have hcontent := carries_walk children (.nil []) hwalk
          rw [lines_of_finish hlines] at hcontent
          rw [← Except.ok.inj h]
          exact Tag.carries_around name attrs indent hcontent
        · next hcontent =>
          -- The children are left out, but nothing of them was to be written.
          rw [← Except.ok.inj h, verbatimAll_of_not_hasContent (eq_false_of_ne_true hcontent),
            List.append_nil]
          exact Tag.carries_empty name attrs indent
  | .text value => exact absurd hn (by simp [text?])
  | .comment value =>
    rw [render] at h
    have hcomment : Carries (verbatim (.comment value)) ("<!--".toText ++ value ++ "-->".toText) :=
      ⟨.of_isInfix (List.infix_refl _), fun _ => Tag.not_allBlank_tag _⟩
    rw [← Except.ok.inj h]
    simpa only [List.append_assoc] using hcomment.prepend indent
  | .document doctype children =>
    rw [render] at h
    obtain ⟨w, hwalk, h⟩ := Logged.value_bind_eq_ok_iff.1 h
    obtain ⟨lines, hlines, h⟩ := Logged.value_bind_eq_ok_iff.1 h
    obtain ⟨_, -, h⟩ := Logged.value_bind_eq_ok_iff.1 h
    have hcontent := carries_walk children (.nil []) hwalk
    rw [lines_of_finish hlines] at hcontent
    -- A declaration stands before everything that is listed.
    match doctype with
    | none | some [] =>
      rw [← Except.ok.inj h]
      exact hcontent
    | some (c :: declaration) =>
      rw [← Except.ok.inj h]
      exact (hcontent.prepend [.char '\n']).prepend (c :: declaration)
  | .foreign kind =>
    rw [render] at h
    exact absurd h (Logged.value_throw_ne_ok _ _)

/-- **A sequence of nodes** is walked with what it has written as it stands, below what was written
before. -/
theorem carries_walk {limit depth : Nat} {w w' : Walk} {vs : List Text} (ns : List Node)
    (hw : Carries vs (joinLines w.lines)) (h : (walk limit ns w depth).run.value = .ok w') :
    Carries (vs ++ verbatimAll ns) (joinLines w'.lines) := by
  match ns with
  | [] =>
    rw [walk] at h
    rw [← Except.ok.inj h, verbatimAll, List.append_nil]
    exact hw
  | n :: ns =>
    rw [walk] at h
    split at h
    · next value hvalue =>
      obtain ⟨w₁, hstep, h⟩ := Logged.value_bind_eq_ok_iff.1 h
      obtain rfl : (feed (Fragment.segment value) w).value = w₁ := Except.ok.inj hstep
      rw [verbatimAll_of_text hvalue, ← List.append_assoc]
      exact carries_walk ns (carries_feed hw (Fragment.settled_segment value)) h
    · next hnone =>
      obtain ⟨w₁, hstep, h⟩ := Logged.value_bind_eq_ok_iff.1 h
      rw [map_eq_pure_bind] at hstep
      obtain ⟨line, hline, hstep⟩ := Logged.value_bind_eq_ok_iff.1 hstep
      obtain rfl : w.emit line = w₁ := Except.ok.inj hstep
      rw [verbatimAll_of_none hnone, ← List.append_assoc]
      exact carries_walk ns (carries_emit hw (carries_render n hnone hline)) h

end

/-- **Attributes, comments and plain text are kept as they stand.** Whatever the tree and the
indent, the attributes of the elements that have a name, the comments, and the runs of plain text of
the text nodes lie in the formatted document in document order, none over another. -/
theorem inOrder_formatDocument (o : Options) (n : Node) (indent : Option Text) {out : Text}
    (h : (n.formatDocument o indent).run.value = .ok out) : InOrder n.verbatim out := by
  unfold formatDocument at h
  split at h
  · next doctype children =>
    have hrender := Logged.value_adapt_eq_ok_iff.1 h
    exact (carries_render (.document doctype children) rfl hrender).inOrder
  · exact absurd h (Logged.value_throw_ne_ok _ _)

/-- A comment over two lines and plain text that continues a block, in an element with two
attributes. -/
theorem inOrder_formatDocument_chain :
    InOrder ["a".toText, "b=\"1\n2\"".toText, "@else x".toText, "<!-- y\n z-->".toText]
      ("<p\n    a\n    b=\"1\n2\">\n  @if (c) \x7b\n  \x7d @else x\n".toText ++
        "    <!-- y\n z-->\n</p>".toText) := by
  have hverbatim : Node.verbatim (.document none [.element "p".toText
      [⟨"a".toText, none⟩, ⟨"b".toText, some "1\n2".toText⟩]
      [.text (some "@if(c)\x7b \x7d @else x".toText), .comment " y\n z".toText]]) =
      ["a".toText, "b=\"1\n2\"".toText, "@else x".toText, "<!-- y\n z-->".toText] := by
    decide +kernel
  rw [← hverbatim]
  exact inOrder_formatDocument .default _ none (Logged.eq_ok_of_toOption (by decide +kernel))

/-- An element without a name is visited, but not even its attributes are written. -/
theorem not_inOrder_unnamed :
    ⟨.element [] [⟨"a".toText, none⟩] [], 0⟩ ∈
        (Node.document none [.element [] [⟨"a".toText, none⟩] []]).visits 0 ∧
      ((Node.document none [.element [] [⟨"a".toText, none⟩] []]).formatDocument .default
        none).run.value = .ok [] ∧
      ¬ InOrder [Attribute.write ⟨"a".toText, none⟩] [] := by
  refine ⟨by simp [visits, visitsAll], rfl, ?_⟩
  intro h
  generalize hs : ([] : Text) = s at h
  cases h with
  | cons u v h =>
    have hv : Attribute.write ⟨"a".toText, none⟩ = [] := by simp_all
    exact absurd hv (by decide)

end Node

end TemplateLayout
