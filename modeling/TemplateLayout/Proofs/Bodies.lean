import TemplateLayout.Proofs.Content
import TemplateLayout.Proofs.Indents
import TemplateLayout.Proofs.TextCuts

/-! # Elements without a body line
An element is laid out around its children where one of them counts as content, and that is asked of
the children before they are laid out. Not every child that counts shows, though: a text of closers
only, an element without a name and an empty document are content and leave no line. Where no child
shows, an element has an empty line between its tags.

* `Node.shows`, `Node.showsAny` — whether a node leaves a line;
* `Walk.NoBlankLine` — no line of a walk is blank, which every step keeps;
* `Walk.Leaves` — a part of a walk leaves a line, or everything as it was;
* `Node.allBlank_render`, `Node.leaves_walk` — a line is left for what shows;
* `Node.hasContent_iff_lines` — when the layout of an element and its body agree;
* `Node.content_without_lines` — three children that count as content and leave no line.
-/

namespace TemplateLayout

open Text Piece Directive

variable {limit depth : Nat} {f : Fragment} {fs : List Fragment} {w w' : Walk}

/-! ## Texts of closers -/

/-- Whether a text holds **closers only**, blanks apart. -/
def Text.onlyClosers (s : Text) : Bool := s.all fun c => isBlank c || c == .char '}'

namespace Fragment

/-- The fragments of a text show what the text does. -/
theorem visible_segment (s : Text) : visible ((segment s).flatMap value) = visible s := by
  rw [segment, visible_ofTokens, Token.flatMap_source_ofPieces, sourceAll_lex]

/-- **Closers only**: a text is cut into nothing else exactly if it holds nothing else. -/
theorem onlyClosers_iff {s : Text} : onlyClosers s = true ↔ ∀ f ∈ segment s, f = .close := by
  constructor
  · intro h
    induction s with
    | nil =>
      rw [segment_of_allBlank rfl]
      exact fun f hf => absurd hf List.not_mem_nil
    | cons c s ih =>
      obtain ⟨hc, hs⟩ := Bool.and_eq_true_iff.1 h
      rcases Bool.or_eq_true_iff.1 hc with hblank | hclose
      · have hcut : segment ([c] ++ s) = segment s :=
          segment_blank_append (by rw [allBlank_cons, hblank]; rfl) s
        rw [← List.singleton_append, hcut]
        exact ih hs
      · rw [beq_iff_eq.1 hclose, segment_eq_ofPieces, lex_cons (by simp), ofPieces_close,
          ← segment_eq_ofPieces]
        intro f hf
        exact (List.mem_cons.1 hf).elim id (ih hs f)
  · intro h
    refine List.all_eq_true.2 fun c hc => ?_
    rw [Bool.or_eq_true, beq_iff_eq]
    by_cases hblank : isBlank c = true
    · exact .inl hblank
    · -- What is not blank shows, and of the fragments only closers do.
      have hvisible : c ∈ visible s := List.mem_filter.2 ⟨hc, by simpa using hblank⟩
      rw [← visible_segment] at hvisible
      obtain ⟨f, hf, hcf⟩ := List.mem_flatMap.1 (List.mem_filter.1 hvisible).1
      rw [h f hf] at hcf
      exact .inr (List.mem_singleton.1 hcf)

end Fragment

/-! ## Lines that show -/

namespace Walk

open Fragment

/-- **No line** of a walk **is blank**. -/
def NoBlankLine (w : Walk) : Prop := ∀ l ∈ w.lines, allBlank l = false

theorem noBlankLine_start (base : Text) : (start base).NoBlankLine :=
  fun _ hl => absurd hl List.not_mem_nil

/-- Behind any indent, a text that shows is no blank line. -/
theorem NoBlankLine.append {l : Text} (h : w.NoBlankLine) (hl : allBlank l = false)
    (indent : Text) (hw : w'.lines = w.lines ++ [indent ++ l]) : w'.NoBlankLine := by
  intro k hk
  rw [hw, List.mem_append, List.mem_singleton] at hk
  rcases hk with hk | rfl
  · exact h k hk
  · rw [allBlank_append, hl, Bool.and_false]

theorem NoBlankLine.emit (h : w.NoBlankLine) (line : Text) : (w.emit line).NoBlankLine := by
  unfold Walk.emit
  split
  · exact h
  · next hline => exact h.append (eq_false_of_ne_true hline) [] rfl

/-- **A fragment is placed on a line of its own.** -/
theorem exists_line_place (hf : Settled (f :: fs)) (w : Walk) :
    ∃ l, allBlank l = false ∧ (w.place f.value).value.lines = w.lines ++ [w.indent ++ l] := by
  rw [value_place hf]
  split
  · exact ⟨Header.spoken f.value, Header.not_allBlank_spoken hf.not_allBlank, rfl⟩
  · exact ⟨f.value, hf.not_allBlank, rfl⟩

/-- Fragments leave no blank line. -/
theorem NoBlankLine.feed (h : w.NoBlankLine) (hfs : Settled fs) :
    (feed fs w).value.NoBlankLine := by
  fun_induction Walk.feed fs w with
  | case1 w => exact h
  | case2 fs w hw ih => exact ih h hfs.tail
  | case3 w b stack hw => exact h.append (Draft.not_allBlank_closer []) b.indent rfl
  | case4 w b stack hw f rest hchain ih =>
    have hlines (header : Text) : (w.continueBlock b stack f.value header).lines =
        w.lines ++ [b.indent ++ .char '}' :: .char ' ' :: header] :=
      congrArg (fun l => w.lines ++ [l]) (List.append_assoc ..)
    exact ih _ (h.append (Draft.not_allBlank_closer _) b.indent (hlines _)) hfs.tail.tail
  | case5 w b stack hw f rest hchain ih =>
    exact ih (h.append (Draft.not_allBlank_closer []) b.indent rfl) hfs.tail
  | case6 f fs w hf ih =>
    obtain ⟨l, hl, hlines⟩ := exists_line_place hfs w
    exact ih _ (h.append hl w.indent hlines) hfs.tail

/-- A walk goes on from `w` to `w'` and **leaves a line**, or else it leaves everything as it
was. -/
structure Leaves (line : Bool) (w w' : Walk) : Prop where
  /-- Without a line nothing has changed. -/
  same : line = false → w' = w
  /-- A line is left. -/
  grows : line = true → w.lines.length < w'.lines.length

/-- Two parts of a walk leave a line if one of them does. -/
theorem Leaves.trans {b b' : Bool} {w₁ : Walk} (h : Leaves b w w₁)
    (h' : w₁ = w → Leaves b' w₁ w') (hlines : w₁.lines <+: w'.lines) : Leaves (b || b') w w' where
  same := by
    intro hnone
    obtain ⟨hb, hb'⟩ := Bool.or_eq_false_iff.1 hnone
    rw [(h' (h.same hb)).same hb', h.same hb]
  grows := by
    intro hsome
    by_cases hb : b = true
    · exact (h.grows hb).trans_le hlines.length_le
    · have hw := h.same (eq_false_of_ne_true hb)
      have hlt := (h' hw).grows ((Bool.or_eq_true_iff.1 hsome).resolve_left hb)
      rwa [hw] at hlt

/-- Where nothing was written before, a line is left exactly if there is one. -/
theorem Leaves.lines_eq_nil_iff {b : Bool} (h : Leaves b w w') (hw : w.lines = []) :
    w'.lines = [] ↔ b = false := by
  constructor
  · intro hnil
    by_contra hb
    have hlt := h.grows (by simpa using hb)
    rw [hnil] at hlt
    exact absurd hlt (Nat.not_lt_zero _)
  · intro hb
    rw [h.same hb, hw]

/-- An entry leaves a line unless it is blank. -/
theorem leaves_emit (w : Walk) (line : Text) : Leaves (!allBlank line) w (w.emit line) where
  same := by
    intro hnone
    rw [emit, if_pos (by simpa using hnone)]
  grows := by
    intro hsome
    rw [emit, if_neg (by simpa using hsome), lines_write, List.length_append]
    exact Nat.lt_succ_self _

/-- Closers outside all blocks leave a walk as it is. -/
theorem feed_of_only_closers (hfs : ∀ f ∈ fs, f = .close) (hw : w.stack = []) :
    (feed fs w).value = w := by
  induction fs with
  | nil => rw [feed_nil]; rfl
  | cons f fs ih =>
    rw [hfs f List.mem_cons_self, feed_close_stray hw, Logged.value_bind]
    exact ih fun g hg => hfs g (List.mem_cons_of_mem _ hg)

/-- **Anything else leaves a line.** -/
theorem length_lines_lt_feed (hfs : Settled fs) (hw : w.stack = []) (h : ∃ f ∈ fs, f ≠ .close) :
    w.lines.length < (feed fs w).value.lines.length := by
  induction fs with
  | nil => simp at h
  | cons f fs ih =>
    by_cases hf : f = .close
    · -- The closer is dropped, so the fragment in question is behind it.
      subst hf
      obtain ⟨g, hg, hne⟩ := h
      rw [feed_close_stray hw, Logged.value_bind]
      exact ih hfs.tail ⟨g, (List.mem_cons.1 hg).resolve_left hne, hne⟩
    · obtain ⟨l, -, hlines⟩ := exists_line_place hfs w
      have hlen := (prefix_lines_feed fs (w.place f.value).value).length_le
      rw [hlines, List.length_append, List.length_singleton] at hlen
      rw [feed_of_ne hf, Logged.value_bind]
      omega

/-- **A text outside all blocks leaves a line** unless it holds closers only. -/
theorem leaves_feed (hw : w.stack = []) (s : Text) :
    Leaves (!onlyClosers s) w (feed (segment s) w).value where
  same := by
    intro hnone
    exact feed_of_only_closers (onlyClosers_iff.1 (by simpa using hnone)) hw
  grows := by
    intro hsome
    refine length_lines_lt_feed (settled_segment s) hw ?_
    by_contra hclosers
    push Not at hclosers
    rw [onlyClosers_iff.2 hclosers] at hsome
    exact Bool.false_ne_true hsome

end Walk

/-! ## Nodes that show -/

namespace Node

open Walk Logged

mutual

/-- Whether a node **leaves a line**, where no block is open: a text unless it holds closers only,
an element if it has a name, a document if it has a declaration or a child that leaves a line. -/
def shows : Node → Bool
  | .element name _ _ => !name.isEmpty
  | .text value => !onlyClosers (value.getD [])
  | .comment _ => true
  | .document doctype children => !allBlank (doctype.getD []) || showsAny children
  | .foreign _ => true

/-- Whether some node of a sequence leaves a line. -/
def showsAny : List Node → Bool
  | [] => false
  | n :: ns => shows n || showsAny ns

end

theorem noBlankLine_walk (ns : List Node) (hw : w.NoBlankLine)
    (h : (walk limit ns w depth).run.value = .ok w') : w'.NoBlankLine := by
  induction ns generalizing w with
  | nil =>
    rw [walk] at h
    rw [← Except.ok.inj h]
    exact hw
  | cons n ns ih =>
    cases hn : n.text? with
    | some value =>
      rw [walk_text hn, value_liftM_bind] at h
      exact ih (hw.feed (Fragment.settled_segment value)) h
    | none =>
      rw [walk_node hn] at h
      obtain ⟨line, -, h⟩ := value_bind_eq_ok_iff.1 h
      exact ih (hw.emit line) h

/-- The tags of an element show. -/
theorem not_allBlank_opening (name : Text) (attrs : List Attribute) (content : Bool)
    (indent : Text) : allBlank (Tag.opening name attrs content indent) = false := by
  rw [Tag.opening, List.append_assoc, List.append_assoc, List.cons_append, allBlank_append,
    Tag.not_allBlank_tag, Bool.and_false]

/-- Lines that show are blank together only if there are none. -/
theorem allBlank_joinLines_iff (h : w.NoBlankLine) :
    allBlank (joinLines w.lines) = true ↔ w.lines = [] := by
  rw [allBlank_joinLines]
  constructor
  · intro hall
    refine List.eq_nil_iff_forall_not_mem.2 fun l hl => ?_
    have hblank := List.all_eq_true.1 hall l hl
    rw [h l hl] at hblank
    exact Bool.false_ne_true hblank
  · intro hnil
    rw [hnil]
    rfl

mutual

/-- **A node is rendered to a blank text exactly if it leaves no line.** -/
theorem allBlank_render {depth : Nat} {indent out : Text} (n : Node) (hn : n.text? = none)
    (h : (render limit n indent depth).run.value = .ok out) : allBlank out = !n.shows := by
  match n with
  | .element name attrs children =>
    rw [render] at h
    split at h
    · exact absurd h (value_throw_ne_ok _ _)
    · rw [shows, Bool.not_not]
      split at h
      · next hname => rw [← Except.ok.inj h, hname, allBlank_nil]
      · next hname =>
        rw [eq_false_of_ne_true hname]
        split at h
        · obtain ⟨w, -, h⟩ := value_bind_eq_ok_iff.1 h
          obtain ⟨lines, -, h⟩ := value_bind_eq_ok_iff.1 h
          rw [← Except.ok.inj h, Tag.around, List.append_assoc, List.append_assoc, allBlank_append,
            not_allBlank_opening, Bool.false_and]
        · rw [← Except.ok.inj h, Tag.empty]
          split
          · exact not_allBlank_opening ..
          · split
            · rw [allBlank_append, not_allBlank_opening, Bool.false_and]
            · rw [List.append_assoc, allBlank_append, not_allBlank_opening, Bool.false_and]
  | .text value => exact absurd hn (by simp [text?])
  | .comment value =>
    rw [render] at h
    rw [← Except.ok.inj h, shows, List.append_assoc, List.append_assoc, allBlank_append]
    exact Bool.and_eq_false_iff.2 (.inr (Tag.not_allBlank_tag _))
  | .document doctype children =>
    rw [render] at h
    obtain ⟨w, hwalk, h⟩ := value_bind_eq_ok_iff.1 h
    obtain ⟨lines, hlines, h⟩ := value_bind_eq_ok_iff.1 h
    obtain ⟨_, -, h⟩ := value_bind_eq_ok_iff.1 h
    have hbody : allBlank (joinLines lines) = !showsAny children := by
      have hnoBlank := noBlankLine_walk children (noBlankLine_start indent) hwalk
      rw [← lines_of_finish hlines, Bool.eq_iff_iff, allBlank_joinLines_iff hnoBlank,
        Bool.not_eq_true',
        (leaves_walk children (stack_start indent) hwalk).lines_eq_nil_iff (lines_start indent)]
    rw [shows, Bool.not_or, Bool.not_not, ← hbody]
    match doctype with
    | none | some [] =>
      rw [← Except.ok.inj h]
      rfl
    | some (c :: declaration) =>
      rw [← Except.ok.inj h, allBlank_append, allBlank_cons (.char '\n'), isBlank_lineFeed,
        Bool.true_and]
      rfl
  | .foreign kind =>
    rw [render] at h
    exact absurd h (value_throw_ne_ok _ _)

/-- **A sequence outside all blocks leaves a line if one of its nodes does.** -/
theorem leaves_walk {depth : Nat} {w w' : Walk} (ns : List Node) (hw : w.stack = [])
    (h : (walk limit ns w depth).run.value = .ok w') : Leaves (showsAny ns) w w' := by
  match ns with
  | [] =>
    rw [walk] at h
    exact ⟨fun _ => (Except.ok.inj h).symm, fun hshows => absurd hshows Bool.false_ne_true⟩
  | n :: ns =>
    rw [showsAny]
    cases hn : n.text? with
    | some value =>
      rw [walk_text hn, value_liftM_bind] at h
      have hshows : n.shows = !onlyClosers value := by
        cases n with
        | text v => rw [← Option.some.inj hn, shows]
        | element name attrs children => simp [text?] at hn
        | comment v => simp [text?] at hn
        | document doctype children => simp [text?] at hn
        | foreign kind => simp [text?] at hn
      rw [hshows]
      refine (leaves_feed hw value).trans (fun hsame => ?_) (prefix_lines_walk ns h)
      exact leaves_walk ns (by rw [hsame, hw]) h
    | none =>
      rw [walk_node hn] at h
      obtain ⟨line, hline, h⟩ := value_bind_eq_ok_iff.1 h
      have hemit := leaves_emit w line
      rw [allBlank_render n hn hline, Bool.not_not] at hemit
      refine hemit.trans (fun _ => ?_) (prefix_lines_walk ns h)
      exact leaves_walk ns (by rw [stack_emit, hw]) h

end

/-! ## Content and lines -/

theorem showsAny_eq_true_iff {ns : List Node} :
    showsAny ns = true ↔ ∃ n ∈ ns, n.shows = true := by
  induction ns with
  | nil => simp [showsAny]
  | cons n ns ih => rw [showsAny, Bool.or_eq_true, ih, List.exists_mem_cons_iff]

/-- What leaves a line is content. -/
theorem isContent_of_shows {n : Node} (h : n.shows = true) : n.isContent = true := by
  cases n with
  | text value =>
    show (!allBlank (value.getD [])) = true
    cases hblank : allBlank (value.getD []) with
    | false => rfl
    | true =>
      -- A blank text holds no closer either.
      have hclosers : onlyClosers (value.getD []) = true := by
        refine List.all_eq_true.2 fun c hc => ?_
        rw [List.all_eq_true.1 hblank c hc, Bool.true_or]
      rw [shows, hclosers] at h
      exact absurd h Bool.false_ne_true
  | element name attrs children => rfl
  | comment value => rfl
  | document doctype children => rfl
  | foreign kind => rfl

theorem hasContent_of_showsAny {ns : List Node} (h : showsAny ns = true) :
    hasContent ns = true := by
  obtain ⟨n, hn, hshows⟩ := showsAny_eq_true_iff.1 h
  exact List.any_eq_true.2 ⟨n, hn, isContent_of_shows hshows⟩

/-- An element with content has an empty body exactly if its children leave no line. -/
theorem render_element_eq_iff {name indent out : Text} {attrs : List Attribute} {ns : List Node}
    (hname : name ≠ []) (hcontent : hasContent ns = true)
    (h : (render limit (.element name attrs ns) indent depth).run.value = .ok out) :
    out = Tag.opening name attrs true indent ++ "\n\n".toText ++ indent ++ Tag.closing name ↔
      showsAny ns = false := by
  rw [render] at h
  by_cases hdepth : limit < depth
  · rw [if_pos hdepth] at h
    exact absurd h (value_throw_ne_ok _ _)
  · rw [if_neg hdepth, if_neg (by simpa using hname), if_pos hcontent] at h
    obtain ⟨w, hwalk, h⟩ := value_bind_eq_ok_iff.1 h
    obtain ⟨lines, hlines, h⟩ := value_bind_eq_ok_iff.1 h
    have hnoBlank := noBlankLine_walk ns (noBlankLine_start _) hwalk
    rw [← (leaves_walk ns (stack_start _) hwalk).lines_eq_nil_iff (lines_start _),
      ← allBlank_joinLines_iff hnoBlank, ← Except.ok.inj h, lines_of_finish hlines, Tag.around]
    constructor
    · intro heq
      -- The tags are the same, so nothing is left for the body.
      have hlength := congrArg List.length heq
      have hbreaks : "\n\n".toText.length = 2 := by decide
      simp only [List.length_append, List.length_cons, hbreaks] at hlength
      have hbody : joinLines lines = [] := List.length_eq_zero_iff.1 (by omega)
      rw [hbody, allBlank_nil]
    · intro hblank
      rw [← lines_of_finish hlines, allBlank_joinLines_iff hnoBlank] at hblank
      rw [← lines_of_finish hlines, hblank, joinLines_nil]
      simp [String.toText, ofChars]

/-- **When an element and its body agree on what is content.** Children that can be laid out leave a
line exactly if one of them shows, and then they have content. So that they have content means that
they leave a line, unless they have content of which nothing shows; and that is exactly where an
element around them has an empty line between its tags. -/
theorem hasContent_iff_lines (limit : Nat) (ns : List Node) (base : Text) (depth : Nat)
    {lines : List Text} (h : (renderSequence limit ns base depth).run.value = .ok lines) :
    (lines ≠ [] ↔ ∃ n ∈ ns, n.shows = true) ∧
      ((hasContent ns = true ↔ lines ≠ []) ↔
        (hasContent ns = true → ∃ n ∈ ns, n.shows = true)) ∧
      ∀ (name : Text) (attrs : List Attribute) (indent : Text) (d : Nat) (out : Text), name ≠ [] →
        hasContent ns = true →
        (render limit (.element name attrs ns) indent d).run.value = .ok out →
        (out = Tag.opening name attrs true indent ++ "\n\n".toText ++ indent ++ Tag.closing name ↔
          ∀ n ∈ ns, n.shows = false) := by
  have hlines : lines ≠ [] ↔ showsAny ns = true := by
    obtain ⟨w, hwalk, hfinish⟩ := value_bind_eq_ok_iff.1 h
    rw [← lines_of_finish hfinish, ne_eq,
      (leaves_walk ns (stack_start base) hwalk).lines_eq_nil_iff (lines_start base),
      Bool.not_eq_false]
  rw [hlines, ← showsAny_eq_true_iff]
  refine ⟨Iff.rfl, ⟨fun hiff => hiff.1, fun himp => ⟨himp, hasContent_of_showsAny⟩⟩, ?_⟩
  intro name attrs indent d out hname hcontent hrender
  rw [render_element_eq_iff hname hcontent hrender, ← Bool.not_eq_true, showsAny_eq_true_iff]
  simp

/-- A comment shows behind a closer that is dropped and an element without a name. -/
theorem hasContent_iff_lines_comment :
    (renderSequence 1 [.text (some "\x7d".toText), .element [] [] [], .comment "a".toText] []
        0).run.value = .ok ["<!--a-->".toText] ∧
      ∃ n ∈ [.text (some "\x7d".toText), .element [] [] [], .comment "a".toText],
        shows n = true := by
  have hlines : (renderSequence 1 [.text (some "\x7d".toText), .element [] [] [],
      .comment "a".toText] [] 0).run.value = .ok ["<!--a-->".toText] :=
    Logged.eq_ok_of_toOption (by decide +kernel)
  exact ⟨hlines, (hasContent_iff_lines 1 _ [] 0 hlines).1.1 (List.cons_ne_nil _ _)⟩

/-- **Content may leave no line.** A closer that is dropped, an element without a name and an empty
document count as content, and an element around them has an empty line between its tags. -/
theorem content_without_lines :
    (hasContent [.text (some "\x7d".toText)] = true ∧
        (renderSequence 1 [.text (some "\x7d".toText)] [] 0).run.value = .ok []) ∧
      (hasContent [.element [] [] []] = true ∧
        (renderSequence 1 [.element [] [] []] [] 0).run.value = .ok []) ∧
      (hasContent [.document none []] = true ∧
        (renderSequence 1 [.document none []] [] 0).run.value = .ok []) ∧
      ((Node.element "p".toText [] [.text (some "\x7d".toText), .element [] [] [],
        .document none []]).format .default none).run.value = .ok "<p>\n\n</p>".toText :=
  ⟨⟨rfl, Logged.eq_ok_of_toOption (by decide +kernel)⟩, ⟨rfl, rfl⟩, ⟨rfl, rfl⟩,
    Logged.eq_ok_of_toOption (by decide +kernel)⟩

end Node

end TemplateLayout
