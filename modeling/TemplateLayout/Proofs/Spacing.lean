import Mathlib.Logic.Relation
import TemplateLayout.Proofs.Walks

/-! # Blanks that mean nothing
Blank text nodes and blanks at the ends of a text have no part in the layout of a tree. A blank node
has no fragment and is no content, so every choice that a layout makes is the same without it; and a
text is cut into the same fragments whatever blanks stand around it.

* `Fragment.segment_append_blank` — blanks behind a text leave no fragment;
* `Node.Spaced` — blanks are put in at one place of a tree;
* `Node.SameLayout`, `Node.SameLayoutAll` — two nodes, or two sequences, that no layout tells apart;
* `Node.format_of_spaced` — trees that differ in such blanks are formatted alike.
-/

namespace TemplateLayout

open Text Piece Token

variable {b : Text} {ps qs : List Piece}

/-! ## Blanks behind a text -/

namespace Token

/-- Pieces without a brace behind others move no block brace. -/
theorem takeBrace_append_braceless (hqs : ∀ q ∈ qs, ¬ IsBrace q) (ps : List Piece) :
    takeBrace (ps ++ qs) = (takeBrace ps).map fun (body, rest) => (body, rest ++ qs) := by
  cases hps : takeBrace ps with
  | some br =>
    refine takeBrace_append_right hps ?_
    intro hhead
    exact hqs _ (List.mem_of_head? hhead) (.inl rfl)
  | none =>
    have hnone : takeBrace qs = none := by
      have h := takeBrace_append hqs []
      rwa [List.append_nil] at h
    by_cases hbrace : ∃ p ∈ ps, IsBrace p
    · obtain ⟨p, hp, hbrace⟩ := hbrace
      exact takeBrace_append_of_mem hps hp hbrace qs
    · rw [takeBrace_append fun p hp hbr => hbrace ⟨p, hp, hbr⟩, hnone]
      rfl

/-- Blanks behind pieces move no header. -/
theorem takeHeader_append_blank (hb : allBlank b = true) (hne : ps ≠ []) :
    takeHeader (ps ++ b.map .point) =
      (takeHeader ps).map fun (body, rest) => (body, rest ++ b.map .point) := by
  have hword : Directive.startsWith Directive.headers (ps ++ b.map .point) =
      Directive.startsWith Directive.headers ps := by
    have hbound : Directive.atBoundary (b.map .point ++ []) = true :=
      Directive.atBoundary_map_point_append hb rfl
    rw [List.append_nil] at hbound
    exact Directive.startsWith_append Directive.isKeywordList_headers hbound hne
  rw [takeHeader, takeHeader, hword]
  split
  · exact takeBrace_append_braceless (fun q => Fragment.not_isBrace_of_mem_map_point hb) ps
  · rfl

/-- What stops a run does so with blanks behind it. -/
theorem IsStop.append_blank (h : IsStop ps) (hb : allBlank b = true) (hne : ps ≠ []) :
    IsStop (ps ++ b.map .point) := by
  cases h with
  | nil => exact absurd rfl hne
  | close ps => exact .close _
  | header h =>
    have hhead := takeHeader_append_blank hb hne
    rw [h] at hhead
    exact .header hhead

end Token

namespace Fragment

/-- **Blanks behind pieces leave no fragment.** -/
theorem ofPieces_append_blank (hb : allBlank b = true) (ps : List Piece) :
    ofPieces (ps ++ b.map .point) = ofPieces ps := by
  induction ps using pieces_induction with
  | nil =>
    have hrun := ofPieces_append_of_isRun (isRun_blank hb []) .nil
    rw [List.append_nil, normalAll_map_point, consPlain_of_allBlank hb] at hrun
    rw [List.nil_append, hrun]
  | close ps ih => rw [List.cons_append, ofPieces_close, ofPieces_close, ih]
  | header ps body rest h ih =>
    have hne : ps ≠ [] := by
      rintro rfl
      exact absurd h (by simp [takeHeader, Directive.startsWith])
    have hhead := takeHeader_append_blank hb hne
    rw [h] at hhead
    rw [ofPieces_header hhead, ofPieces_header h, ih]
  | run rs qs hrun hstop ih =>
    -- No header begins in the run with the blanks present either.
    have hrun' : IsRun rs (qs ++ b.map .point) := by
      refine ⟨hrun.noCloser, fun ps hps hne => ?_⟩
      rw [← List.append_assoc, takeHeader_append_blank hb (by simp [hne]), hrun.noHeader ps hps hne]
      rfl
    by_cases hqs : qs = []
    · -- The blanks go on with the run, and are trimmed with it.
      subst hqs
      rw [List.nil_append, ← List.append_nil (b.map Piece.point)] at hrun'
      have hlong := ofPieces_append_of_isRun (hrun'.append (isRun_blank hb [])) .nil
      rw [List.append_nil] at hlong
      rw [List.append_nil, hlong, normalAll_append, normalAll_map_point, consPlain,
        trim_append_right hb, ← consPlain, ← ofPieces_append_of_isRun hrun .nil, List.append_nil]
    · rw [List.append_assoc, ofPieces_append_of_isRun hrun' (hstop.append_blank hb hqs), ih,
        ofPieces_append_of_isRun hrun hstop]

/-- Blanks at the end of a text leave no fragment. -/
theorem segment_append_blank (hb : allBlank b = true) (s : Text) :
    segment (s ++ b) = segment s := by
  rw [segment_eq_ofPieces, lex_append_blank hb, ofPieces_append_blank hb, ← segment_eq_ofPieces]

end Fragment

/-! ## Trees -/

namespace Node

open Walk Logged

variable {n n' : Node} {ns ns' : List Node}

/-- **Blanks are put in** at one place of a tree: around a text, or as a text node among the
children of an element or a document, at any depth. -/
inductive Spaced : Node → Node → Prop where
  /-- Blanks around a text. -/
  | text (b v b' : Text) (hb : allBlank b = true) (hb' : allBlank b' = true) :
    Spaced (.text (some v)) (.text (some (b ++ v ++ b')))
  /-- A blank text node in an element. -/
  | inElement (name : Text) (attrs : List Attribute) (ns ms : List Node) (v : Option Text)
      (hv : allBlank (v.getD []) = true) :
    Spaced (.element name attrs (ns ++ ms)) (.element name attrs (ns ++ .text v :: ms))
  /-- A blank text node in a document. -/
  | inDocument (doctype : Option Text) (ns ms : List Node) (v : Option Text)
      (hv : allBlank (v.getD []) = true) :
    Spaced (.document doctype (ns ++ ms)) (.document doctype (ns ++ .text v :: ms))
  /-- Blanks in a child of an element. -/
  | childOfElement (name : Text) (attrs : List Attribute) (ns ms : List Node) {n n' : Node}
      (h : Spaced n n') :
    Spaced (.element name attrs (ns ++ n :: ms)) (.element name attrs (ns ++ n' :: ms))
  /-- Blanks in a child of a document. -/
  | childOfDocument (doctype : Option Text) (ns ms : List Node) {n n' : Node} (h : Spaced n n') :
    Spaced (.document doctype (ns ++ n :: ms)) (.document doctype (ns ++ n' :: ms))

/-- Two nodes that **no layout tells apart**: they are rendered alike everywhere, and in a sequence
they are the same texts and the same content. -/
structure SameLayout (n n' : Node) : Prop where
  /-- Both are texts with the same fragments, or none is a text. -/
  fragments : n.text?.map Fragment.segment = n'.text?.map Fragment.segment
  /-- Both are content or none is. -/
  content : n.isContent = n'.isContent
  /-- Both are rendered alike. -/
  value : ∀ limit indent depth,
    (render limit n indent depth).run.value = (render limit n' indent depth).run.value

/-- Two sequences of nodes that no layout tells apart. -/
structure SameLayoutAll (ns ns' : List Node) : Prop where
  /-- Both have content or none has. -/
  content : hasContent ns = hasContent ns'
  /-- Both are walked alike. -/
  value : ∀ limit w depth,
    (walk limit ns w depth).run.value = (walk limit ns' w depth).run.value

/-- Blanks around a text. -/
theorem sameLayout_text {b b' : Text} (hb : allBlank b = true) (hb' : allBlank b' = true)
    (v : Text) : SameLayout (.text (some v)) (.text (some (b ++ v ++ b'))) where
  fragments := by
    show some (Fragment.segment v) = some (Fragment.segment (b ++ v ++ b'))
    rw [List.append_assoc, Fragment.segment_blank_append hb, Fragment.segment_append_blank hb']
  content := by
    show (!allBlank v) = !allBlank (b ++ v ++ b')
    rw [allBlank_append, allBlank_append, hb, hb', Bool.true_and, Bool.and_true]
  value := by
    intro limit indent depth
    have hlayout : Text.layout (b ++ v ++ b') indent = Text.layout v indent := by
      rw [Text.layout, Text.layout, trim_append_append hb hb']
    rw [render, render, Option.getD_some, Option.getD_some, hlayout]

/-- A blank text node in a sequence. -/
theorem sameLayoutAll_blank {v : Option Text} (hv : allBlank (v.getD []) = true)
    (ns ms : List Node) : SameLayoutAll (ns ++ ms) (ns ++ .text v :: ms) where
  content := by
    have hcontent : isContent (.text v) = false := by
      show (!allBlank (v.getD [])) = false
      rw [hv, Bool.not_true]
    rw [hasContent, hasContent, List.any_append, List.any_append, List.any_cons, hcontent,
      Bool.false_or]
  value := by
    intro limit w depth
    have hwalk (w : Walk) : walk limit (.text v :: ms) w depth = walk limit ms w depth := by
      have htext : (Node.text v).text? = some (v.getD []) := rfl
      rw [walk_text htext, Fragment.segment_of_allBlank hv, feed_nil, liftM_pure, pure_bind]
    simp only [walk_append, hwalk]

/-- A child in a sequence. -/
theorem SameLayout.child (h : SameLayout n n') (ns ms : List Node) :
    SameLayoutAll (ns ++ n :: ms) (ns ++ n' :: ms) where
  content := by
    rw [hasContent, hasContent, List.any_append, List.any_append, List.any_cons, List.any_cons,
      h.content]
  value := by
    intro limit w depth
    rw [walk_append, walk_append]
    refine value_bind_congr rfl fun w' => ?_
    have hfragments := h.fragments
    cases hn : n.text? with
    | some s =>
      rw [hn] at hfragments
      obtain ⟨s', hn', hs⟩ := Option.map_eq_some_iff.1 hfragments.symm
      rw [walk_text hn, walk_text hn', hs]
    | none =>
      rw [hn] at hfragments
      have hn' : n'.text? = none := Option.map_eq_none_iff.1 hfragments.symm
      rw [walk_node hn, walk_node hn']
      exact value_bind_congr (h.value limit w'.indent depth) fun line => rfl

/-- The children of an element. -/
theorem SameLayoutAll.element (h : SameLayoutAll ns ns') (name : Text) (attrs : List Attribute) :
    SameLayout (.element name attrs ns) (.element name attrs ns') where
  fragments := rfl
  content := rfl
  value := by
    intro limit indent depth
    rw [render, render, h.content]
    split
    · rfl
    · split
      · rfl
      · split
        · exact value_bind_congr (h.value ..) fun w => rfl
        · rfl

/-- The children of a document. Its note counts them, but its text does not depend on the note. -/
theorem SameLayoutAll.document (h : SameLayoutAll ns ns') (doctype : Option Text) :
    SameLayout (.document doctype ns) (.document doctype ns') where
  fragments := rfl
  content := rfl
  value := by
    intro limit indent depth
    rw [render, render]
    refine value_bind_congr (h.value ..) fun w => ?_
    refine value_bind_congr rfl fun lines => ?_
    rw [value_liftM_bind, value_liftM_bind]

/-- **One place with blanks changes no layout.** -/
theorem Spaced.sameLayout (h : Spaced n n') : SameLayout n n' := by
  induction h with
  | text b v b' hb hb' => exact sameLayout_text hb hb' v
  | inElement name attrs ns ms v hv => exact (sameLayoutAll_blank hv ns ms).element name attrs
  | inDocument doctype ns ms v hv => exact (sameLayoutAll_blank hv ns ms).document doctype
  | childOfElement name attrs ns ms h ih => exact (ih.child ns ms).element name attrs
  | childOfDocument doctype ns ms h ih => exact (ih.child ns ms).document doctype

/-- **Formatting ignores blanks that mean nothing.** Where blanks are put in or taken out at any
number of places of a tree, around texts and as text nodes of their own, formatting gives the same
text, or the same error. -/
theorem format_of_spaced (o : Options) (indent : Option Text)
    (h : Relation.EqvGen Spaced n n') :
    (n.format o indent).run.value = (n'.format o indent).run.value := by
  have hrender : (render o.maxDepth n (indent.getD o.baseIndent) 0).run.value =
      (render o.maxDepth n' (indent.getD o.baseIndent) 0).run.value := by
    induction h with
    | rel n n' h => exact h.sameLayout.value ..
    | refl n => rfl
    | symm n n' h ih => exact ih.symm
    | trans n n₁ n₂ h h' ih ih' => exact ih.trans ih'
  rw [format, format, ExceptT.run_adapt, ExceptT.run_adapt, value_map, value_map, hrender]

/-- A blank node goes from before a paragraph, one comes into it, and its text is trimmed. -/
theorem format_of_spaced_paragraph :
    Relation.EqvGen Spaced
        (.document none [.text none, .element "p".toText [] [.text (some "\n@else\x7b a".toText)]])
        (.document none
          [.element "p".toText [] [.text (some "@else\x7b a".toText), .text (some " ".toText)]]) ∧
      (format .default (.document none
          [.text none, .element "p".toText [] [.text (some "\n@else\x7b a".toText)]])
          none).run.value =
        (format .default (.document none [.element "p".toText []
          [.text (some "@else\x7b a".toText), .text (some " ".toText)]]) none).run.value := by
  have hgone : Spaced
      (.document none [.element "p".toText [] [.text (some "\n@else\x7b a".toText)]])
      (.document none
        [.text none, .element "p".toText [] [.text (some "\n@else\x7b a".toText)]]) :=
    .inDocument none [] _ none rfl
  have htrimmed : Spaced
      (.document none [.element "p".toText [] [.text (some "@else\x7b a".toText)]])
      (.document none [.element "p".toText [] [.text (some "\n@else\x7b a".toText)]]) :=
    .childOfDocument none [] [] (.childOfElement _ [] [] [] (.text "\n".toText _ [] rfl rfl))
  have hnew : Spaced (.document none [.element "p".toText [] [.text (some "@else\x7b a".toText)]])
      (.document none
        [.element "p".toText [] [.text (some "@else\x7b a".toText), .text (some " ".toText)]]) :=
    .childOfDocument none [] [] (.inElement _ [] [_] [] (some " ".toText) rfl)
  have hspaced := ((Relation.EqvGen.rel _ _ hgone).symm.trans _ _ _
    (Relation.EqvGen.rel _ _ htrimmed).symm).trans _ _ _ (.rel _ _ hnew)
  exact ⟨hspaced, format_of_spaced .default none hspaced⟩

end Node

end TemplateLayout
