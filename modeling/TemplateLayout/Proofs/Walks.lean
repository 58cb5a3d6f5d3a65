import TemplateLayout.Document
import TemplateLayout.Proofs.Headers
import TemplateLayout.Proofs.Logged

/-! # Laws of walks
What one fragment does to a walk. A fragment that a text was cut into is trimmed, not empty and in
normal form, so laying it out never drops it: it is written as it stands, or as its header line
where it opens or continues a block.

* `Fragment.Settled.trimmed`, `Fragment.Settled.normal` — the text of a settled fragment;
* `Walk.value_place` — the one step of a walk that is no closer;
* `Walk.feed_close_stray`, `Walk.feed_close_chain`, `Walk.feed_close_end` — the steps of a closer;
* `Walk.BlankIndents` — walks at blank indents, which every step keeps;
* `Node.walk_text`, `Node.walk_node`, `Node.walk_append` — the nodes of a sequence, one by one.
-/

namespace TemplateLayout

open Text Piece Token Directive

variable {v : Text} {f : Fragment} {fs gs : List Fragment}

/-- The indent of options is blank. -/
theorem Options.allBlank_baseIndent (o : Options) : allBlank o.baseIndent = true := by
  refine List.all_eq_true.2 fun c hc => ?_
  rw [beq_iff_eq.1 (List.all_eq_true.1 o.spaces c hc)]
  decide

/-! ## The text of a fragment -/

namespace Fragment

/-- A header has no blank at an end. -/
theorem IsHeader.trimmed (h : IsHeader v) : trim v = v := by
  obtain ⟨s, rfl, -⟩ := Header.isHeader_iff.1 h
  exact trim_eq_self (Header.startsBlank_enclose s) (Header.endsBlank_enclose s)

theorem IsHeader.ne_nil (h : IsHeader v) : v ≠ [] := by
  obtain ⟨s, rfl, -⟩ := Header.isHeader_iff.1 h
  exact List.cons_ne_nil _ _

/-- A settled fragment has no blank at an end. -/
theorem Settled.trimmed (h : Settled (f :: fs)) : trim f.value = f.value := by
  cases f with
  | plain v => exact h.1.trimmed
  | header v => exact h.1.1.trimmed
  | close => decide

/-- A settled fragment is not empty. -/
theorem Settled.ne_nil (h : Settled (f :: fs)) : f.value ≠ [] := by
  cases f with
  | plain v => exact h.1.ne_nil
  | header v => exact h.1.1.ne_nil
  | close => exact List.cons_ne_nil _ _

/-- A settled fragment has its spans in normal form. -/
theorem Settled.normal (h : Settled (f :: fs)) : Interpolation.normalize f.value = f.value := by
  cases f with
  | plain v => exact h.1.normal
  | header v => exact h.1.2
  | close => decide +kernel

/-- A settled fragment is not blank. -/
theorem Settled.not_allBlank (h : Settled (f :: fs)) : allBlank f.value = false := by
  cases hall : allBlank f.value with
  | false => rfl
  | true =>
    rw [← trim_eq_nil_iff, h.trimmed] at hall
    exact absurd hall h.ne_nil

/-- A closer continues no block. -/
theorem isChain_close : isChain close.value = false := by decide +kernel

end Fragment

/-! ## Steps of a walk -/

namespace Walk

variable {w : Walk} {b : Block} {stack : BlockStack}

/-- **A settled fragment is placed** as its header line, which opens a block, or as it stands. -/
theorem value_place (h : Fragment.Settled (f :: fs)) (w : Walk) :
    (w.place f.value).value =
      if isOpener f.value then w.openBlock f.value (w.indent ++ Header.spoken f.value)
      else w.write (w.indent ++ f.value) := by
  rw [place]
  split
  · rw [Logged.value_map, Header.value_line]
  · next hopener =>
    -- Trimming, normal form and the test for a blank line change nothing here.
    have hlayout : (Text.layout f.value w.indent).value = w.indent ++ f.value := by
      rw [Text.layout, h.trimmed, if_neg (by simpa using h.ne_nil), if_neg hopener]
      split
      · rw [Logged.value_pure, Interpolation.line, h.normal]
      · rfl
    rw [Logged.value_map, hlayout, emit, allBlank_append, h.not_allBlank, Bool.and_false,
      if_neg Bool.false_ne_true]

theorem feed_nil (w : Walk) : feed [] w = pure w := by rw [feed]

/-- A fragment that is no closer is placed. -/
theorem feed_of_ne (hf : f ≠ .close) (fs : List Fragment) (w : Walk) :
    feed (f :: fs) w = w.place f.value >>= feed fs := by
  rw [feed]
  exact hf

/-- A closer that meets no open block is dropped. -/
theorem feed_close_stray (hw : w.stack = []) (fs : List Fragment) :
    feed (.close :: fs) w = Logged.note .strayCloser >>= fun _ => feed fs w := by
  rw [feed, hw]

/-- A closer takes a chain continuation along. -/
theorem feed_close_chain (hw : w.stack = b :: stack) (hf : isChain f.value = true)
    (fs : List Fragment) :
    feed (.close :: f :: fs) w =
      Header.line f.value [] >>= fun header =>
        feed fs (w.continueBlock b stack f.value header) := by
  rw [feed, hw]
  simp only [hf, if_true]

/-- A closer ends the innermost block where no chain continuation follows. -/
theorem feed_close_end (hw : w.stack = b :: stack)
    (hfs : ∀ f, fs.head? = some f → isChain f.value = false) :
    feed (.close :: fs) w = feed fs (w.endBlock b stack) := by
  cases fs with
  | nil =>
    rw [feed_nil]
    conv => lhs; unfold feed
    rw [hw]
  | cons f fs =>
    conv => lhs; rw [feed, hw]
    simp only [hfs f rfl, Bool.false_eq_true, if_false]

/-! ## Indents -/

/-- All **indents of a walk are blank**: that of the sequence and those of the open blocks. -/
structure BlankIndents (w : Walk) : Prop where
  /-- The indent outside all blocks. -/
  base : allBlank w.base = true
  /-- The indents of the open blocks. -/
  blocks : ∀ b ∈ w.stack, allBlank b.indent = true

theorem blankIndents_start {base : Text} (h : allBlank base = true) : (start base).BlankIndents :=
  ⟨h, by simp⟩

/-- What comes next stands at a blank indent. -/
theorem BlankIndents.indent (h : w.BlankIndents) : allBlank w.indent = true := by
  unfold Walk.indent BlockStack.indent
  split
  · next b hb =>
    rw [Block.contentIndent, allBlank_append, h.blocks b (List.mem_of_head? hb)]
    decide
  · exact h.base

theorem BlankIndents.write (h : w.BlankIndents) (line : Text) : (w.write line).BlankIndents :=
  ⟨h.base, h.blocks⟩

theorem BlankIndents.emit (h : w.BlankIndents) (line : Text) : (w.emit line).BlankIndents := by
  unfold Walk.emit
  split
  · exact h
  · exact h.write line

theorem BlankIndents.openBlock (h : w.BlankIndents) (directive line : Text) :
    (w.openBlock directive line).BlankIndents where
  base := h.base
  blocks := by
    intro b hb
    rcases List.mem_cons.1 hb with rfl | hb
    · exact h.indent
    · exact h.blocks b hb

theorem BlankIndents.endBlock (h : w.BlankIndents) (hw : w.stack = b :: stack) :
    (w.endBlock b stack).BlankIndents where
  base := h.base
  blocks := fun b' hb' => h.blocks b' (hw ▸ List.mem_cons_of_mem _ hb')

theorem BlankIndents.continueBlock (h : w.BlankIndents) (hw : w.stack = b :: stack)
    (directive header : Text) : (w.continueBlock b stack directive header).BlankIndents where
  base := h.base
  blocks := by
    intro b' hb'
    rcases List.mem_cons.1 hb' with rfl | hb'
    · exact h.blocks b (hw ▸ List.mem_cons_self)
    · exact h.blocks b' (hw ▸ List.mem_cons_of_mem _ hb')

theorem BlankIndents.place (h : w.BlankIndents) (v : Text) : (w.place v).value.BlankIndents := by
  rw [Walk.place]
  split
  · exact h.openBlock _ _
  · exact h.emit _

/-- Fragments leave all indents blank. -/
theorem BlankIndents.feed (h : w.BlankIndents) (fs : List Fragment) :
    (feed fs w).value.BlankIndents := by
  fun_induction Walk.feed fs w with
  | case1 w => exact h
  | case2 fs w hw ih => exact ih h
  | case3 w b stack hw => exact h.endBlock hw
  | case4 w b stack hw f rest hchain ih => exact ih _ (h.continueBlock hw _ _)
  | case5 w b stack hw f rest hchain ih => exact ih (h.endBlock hw)
  | case6 f fs w hf ih => exact ih _ (h.place f.value)

end Walk

/-! ## Sequences of nodes -/

namespace Node

variable {limit depth : Nat} {n : Node}

/-- A text node feeds its fragments. -/
theorem walk_text {value : Text} (hn : n.text? = some value) (ns : List Node) (w : Walk) :
    walk limit (n :: ns) w depth =
      liftM (w.feed (Fragment.segment value)) >>= fun w' => walk limit ns w' depth := by
  rw [walk, hn]

/-- Any other node is rendered and written. -/
theorem walk_node (hn : n.text? = none) (ns : List Node) (w : Walk) :
    walk limit (n :: ns) w depth =
      render limit n w.indent depth >>= fun line => walk limit ns (w.emit line) depth := by
  rw [walk, hn]
  exact bind_map_left ..

/-- **A sequence of nodes is walked part by part.** -/
theorem walk_append (ns ms : List Node) (w : Walk) :
    walk limit (ns ++ ms) w depth = walk limit ns w depth >>= fun w' => walk limit ms w' depth := by
  induction ns generalizing w with
  | nil => rw [List.nil_append, walk, pure_bind]
  | cons n ns ih =>
    rw [List.cons_append]
    cases hn : n.text? with
    | some value =>
      rw [walk_text hn, walk_text hn, bind_assoc]
      exact bind_congr fun w' => ih w'
    | none =>
      rw [walk_node hn, walk_node hn, bind_assoc]
      exact bind_congr fun line => ih (w.emit line)

/-- The lines of a finished walk are those of the walk. -/
theorem lines_of_finish {w : Walk} {lines : List Text}
    (h : (liftM w.finish : Rendering (List Text)).run.value = .ok lines) : w.lines = lines :=
  (Walk.value_finish w).symm.trans (Except.ok.inj h)

end Node

end TemplateLayout
