import Mathlib.Data.List.Forall2
import Mathlib.Logic.Relation
import TemplateLayout.Proofs.Walks

/-! # Stages of a walk
Laying out a sequence of nodes goes from stage to stage: a text node is cut into fragments, a
fragment is placed, a closer ends a block or is dropped, another node is rendered. What holds of
every stage is what one step keeps.

* `Node.resume` — what is left to do at a stage, as a computation;
* `Stage`, `Stage.Step`, `Stage.Reaches` — the stages, one step, and any number of them;
* `Stage.value_walk_eq_ok_iff` — the steps are those of `Node.walk`;
* `Stage.Nested` — the invariant of the open blocks;
* `Stage.indents_of_reaches` — every indent is the base and two spaces for each open block.
-/

namespace TemplateLayout

open Text Directive

variable {limit depth : Nat} {n : Node} {fs gs : List Fragment} {w : Walk}

/-! ## What is left of a walk -/

namespace Walk

variable {v : Text}

/-- An opener is placed by opening its block. -/
theorem place_of_isOpener (h : isOpener v = true) (w : Walk) :
    w.place v = w.openBlock v <$> Header.line v w.indent := by
  rw [place, if_pos h]

/-- Anything else is placed as a line. -/
theorem place_of_not_isOpener (h : isOpener v = false) (w : Walk) :
    w.place v = w.emit <$> Text.layout v w.indent := by
  rw [place, if_neg (by simp [h])]

end Walk

namespace Node

open Walk

/-- **What is left of a walk**: some fragments of a text node, then the nodes behind it. -/
def resume (limit : Nat) (fs : List Fragment) (ns : List Node) (w : Walk) (depth : Nat) :
    Rendering Walk := do
  let w' ← (w.feed fs : Logged _)
  walk limit ns w' depth

/-- Without fragments the nodes are left. -/
theorem resume_nil (ns : List Node) (w : Walk) :
    resume limit [] ns w depth = walk limit ns w depth := by
  rw [resume, feed_nil, liftM_pure, pure_bind]

/-- A text node is cut into fragments. -/
theorem resume_text {value : Text} (hn : n.text? = some value) (ns : List Node) (w : Walk) :
    resume limit [] (n :: ns) w depth = resume limit (Fragment.segment value) ns w depth := by
  rw [resume_nil, walk, hn]
  rfl

/-- Any other node is rendered and written. -/
theorem resume_node (hn : n.text? = none) (ns : List Node) (w : Walk) :
    resume limit [] (n :: ns) w depth =
      render limit n w.indent depth >>= fun line => resume limit [] ns (w.emit line) depth := by
  rw [resume_nil, walk, hn]
  simp only [resume_nil, bind_map_left]

/-- A step that fragments take is a step of what is left. -/
theorem resume_of_feed {α : Type} {x : Logged α} {g : α → Walk}
    (h : feed fs w = x >>= fun a => feed gs (g a)) (ns : List Node) :
    resume limit fs ns w depth = liftM x >>= fun a => resume limit gs ns (g a) depth := by
  simp only [resume, h, liftM_bind, bind_assoc]

end Node

/-! ## Stages -/

/-- A **stage** of laying out a sequence of nodes. -/
structure Stage where
  /-- The open blocks, and the lines written so far. -/
  walk : Walk
  /-- For each open block, the innermost first, the number of the line that opened its chain. -/
  origins : List Nat
  /-- What is left of the text node at hand. -/
  fragments : List Fragment
  /-- The nodes behind it. -/
  nodes : List Node

namespace Stage

open Walk

/-- The first stage of a sequence. -/
def start (base : Text) (ns : List Node) : Stage := ⟨.start base, [], [], ns⟩

/-- What is left to do at a stage. -/
def resume (limit depth : Nat) (s : Stage) : Rendering Walk :=
  Node.resume limit s.fragments s.nodes s.walk depth

/-- **One step** from stage to stage. The line of an opener becomes the origin of its block, and a
continuation keeps the origin of the block that it continues. -/
inductive Step (limit depth : Nat) : Stage → Stage → Prop where
  /-- A text node is cut. -/
  | text {w : Walk} {os : List Nat} {n : Node} {ns : List Node} {value : Text}
      (hn : n.text? = some value) :
      Step limit depth ⟨w, os, [], n :: ns⟩ ⟨w, os, Fragment.segment value, ns⟩
  /-- Another node is rendered. -/
  | node {w : Walk} {os : List Nat} {n : Node} {ns : List Node} {line : Text}
      (hn : n.text? = none) (hline : (n.render limit w.indent depth).run.value = .ok line) :
      Step limit depth ⟨w, os, [], n :: ns⟩ ⟨w.emit line, os, [], ns⟩
  /-- A fragment opens a block. -/
  | opened {w : Walk} {os : List Nat} {f : Fragment} {fs : List Fragment} {ns : List Node}
      (hf : f ≠ .close) (hopener : isOpener f.value = true) :
      Step limit depth ⟨w, os, f :: fs, ns⟩
        ⟨w.openBlock f.value (Header.line f.value w.indent).value, w.lines.length :: os, fs, ns⟩
  /-- A fragment is a line. -/
  | placed {w : Walk} {os : List Nat} {f : Fragment} {fs : List Fragment} {ns : List Node}
      (hf : f ≠ .close) (hopener : isOpener f.value = false) :
      Step limit depth ⟨w, os, f :: fs, ns⟩
        ⟨w.emit (Text.layout f.value w.indent).value, os, fs, ns⟩
  /-- A closer meets no open block and is dropped. -/
  | stray {w : Walk} {os : List Nat} {fs : List Fragment} {ns : List Node} (hw : w.stack = []) :
      Step limit depth ⟨w, os, .close :: fs, ns⟩ ⟨w, os, fs, ns⟩
  /-- A closer ends the innermost block. -/
  | ended {w : Walk} {os : List Nat} {fs : List Fragment} {ns : List Node} {b : Block}
      {stack : BlockStack} (hw : w.stack = b :: stack)
      (hfs : ∀ f, fs.head? = some f → isChain f.value = false) :
      Step limit depth ⟨w, os, .close :: fs, ns⟩ ⟨w.endBlock b stack, os.tail, fs, ns⟩
  /-- A closer takes a continuation along. -/
  | chained {w : Walk} {os : List Nat} {f : Fragment} {fs : List Fragment} {ns : List Node}
      {b : Block} {stack : BlockStack} (hw : w.stack = b :: stack) (hf : isChain f.value = true) :
      Step limit depth ⟨w, os, .close :: f :: fs, ns⟩
        ⟨w.continueBlock b stack f.value (Header.line f.value []).value, os, fs, ns⟩

/-- A stage **reaches** another by any number of steps. -/
abbrev Reaches (limit depth : Nat) : Stage → Stage → Prop :=
  Relation.ReflTransGen (Step limit depth)

variable {s t u : Stage} {base : Text} {ns : List Node}

/-- The first step at a text node leaves its fragments. -/
theorem reaches_fragments {value : Text} (hcut : Fragment.segment value = fs) (limit depth : Nat)
    (base : Text) (ns : List Node) :
    Reaches limit depth (start base (.text (some value) :: ns)) ⟨.start base, [], fs, ns⟩ := by
  rw [← hcut]
  exact .single (.text rfl)

/-- A step does what is left to do: after it the rest gives the same result. -/
theorem Step.value_resume (h : Step limit depth s t) :
    (s.resume limit depth).run.value = (t.resume limit depth).run.value := by
  unfold Stage.resume
  cases h with
  | text hn => rw [Node.resume_text hn]
  | node hn hline => rw [Node.resume_node hn, Logged.value_bind_of_ok hline]
  | @opened w os f fs ns hf hopener =>
    rw [Node.resume_of_feed (feed_of_ne hf fs w), place_of_isOpener hopener,
      Logged.value_liftM_bind]
    rfl
  | @placed w os f fs ns hf hopener =>
    rw [Node.resume_of_feed (feed_of_ne hf fs w), place_of_not_isOpener hopener,
      Logged.value_liftM_bind]
    rfl
  | @stray w os fs ns hw =>
    rw [Node.resume_of_feed (feed_close_stray hw fs), Logged.value_liftM_bind]
  | ended hw hfs =>
    show (Node.resume ..).run.value = (Node.resume ..).run.value
    rw [Node.resume, feed_close_end hw hfs]
    rfl
  | @chained w os f fs ns b stack hw hf =>
    rw [Node.resume_of_feed (feed_close_chain hw hf fs), Logged.value_liftM_bind]

/-- **Every stage is one of the walk**: what is left to do there gives what the whole gives. -/
theorem Reaches.value_resume (h : Reaches limit depth s t) :
    (s.resume limit depth).run.value = (t.resume limit depth).run.value := by
  induction h with
  | refl => rfl
  | tail _ hstep ih => exact ih.trans hstep.value_resume

/-- Fragments are fed step by step. -/
theorem exists_reaches_feed (limit depth : Nat) (fs : List Fragment) (w : Walk) (os : List Nat)
    (ns : List Node) :
    ∃ os', Reaches limit depth ⟨w, os, fs, ns⟩ ⟨(feed fs w).value, os', [], ns⟩ := by
  fun_induction feed fs w generalizing os with
  | case1 w => exact ⟨os, .refl⟩
  | case2 fs w hw ih =>
    obtain ⟨os', h⟩ := ih os
    exact ⟨os', .head (.stray hw) h⟩
  | case3 w b stack hw => exact ⟨os.tail, .single (.ended hw (by simp))⟩
  | case4 w b stack hw f rest hchain ih =>
    obtain ⟨os', h⟩ := ih _ os
    exact ⟨os', .head (.chained hw hchain) h⟩
  | case5 w b stack hw f rest hchain ih =>
    obtain ⟨os', h⟩ := ih os.tail
    exact ⟨os', .head (.ended hw (by simpa using hchain)) h⟩
  | case6 f fs w hf ih =>
    rw [Logged.value_bind]
    cases hopener : isOpener f.value with
    | true =>
      obtain ⟨os', h⟩ := ih (w.place f.value).value (w.lines.length :: os)
      refine ⟨os', .head ?_ h⟩
      rw [place_of_isOpener hopener]
      exact .opened hf hopener
    | false =>
      obtain ⟨os', h⟩ := ih (w.place f.value).value os
      refine ⟨os', .head ?_ h⟩
      rw [place_of_not_isOpener hopener]
      exact .placed hf hopener

/-- **A walk that succeeds goes step by step to its end.** -/
theorem exists_reaches {w' : Walk} (os : List Nat)
    (h : (Node.walk limit ns w depth).run.value = .ok w') :
    ∃ os', Reaches limit depth ⟨w, os, [], ns⟩ ⟨w', os', [], []⟩ := by
  induction ns generalizing w os with
  | nil =>
    rw [Node.walk] at h
    obtain rfl : w = w' := Except.ok.inj h
    exact ⟨os, .refl⟩
  | cons n ns ih =>
    rw [← Node.resume_nil] at h
    cases hn : n.text? with
    | some value =>
      rw [Node.resume_text hn] at h
      obtain ⟨os₁, hfeed⟩ := exists_reaches_feed limit depth (Fragment.segment value) w os ns
      obtain ⟨os₂, hrest⟩ := ih os₁ h
      exact ⟨os₂, .head (.text hn) (hfeed.trans hrest)⟩
    | none =>
      rw [Node.resume_node hn] at h
      obtain ⟨line, hline, h⟩ := Logged.value_bind_eq_ok_iff.1 h
      rw [Node.resume_nil] at h
      obtain ⟨os', hrest⟩ := ih os h
      exact ⟨os', .head (.node hn hline) hrest⟩

/-- **The steps are those of the walk**: it succeeds with the state at whose stage nothing is left
to do. -/
theorem value_walk_eq_ok_iff {w' : Walk} (base : Text) (ns : List Node) :
    (Node.walk limit ns (.start base) depth).run.value = .ok w' ↔
      ∃ os, Reaches limit depth (start base ns) ⟨w', os, [], []⟩ := by
  constructor
  · exact exists_reaches []
  · rintro ⟨os, h⟩
    have hvalue := h.value_resume
    rw [resume, resume, start, Node.resume_nil, Node.resume_nil] at hvalue
    rw [hvalue, Node.walk]
    rfl

end Stage

/-! ## Indents -/

namespace BlockStack

variable {stack : BlockStack} {base : Text}

/-- Blocks are **nested at** a base: each stands at the base and two spaces for every block around
it. -/
def NestedAt (base : Text) : BlockStack → Prop
  | [] => True
  | b :: stack => b.indent = base ++ spaces (2 * stack.length) ∧ NestedAt base stack

/-- What comes next stands one unit deeper than the innermost block. -/
theorem NestedAt.indent_eq (h : stack.NestedAt base) :
    stack.indent base = base ++ spaces (2 * stack.length) := by
  cases stack with
  | nil => simp [spaces]
  | cons b stack =>
    show b.indent ++ indentUnit = _
    rw [h.1, List.append_assoc, List.length_cons, indentUnit, spaces, spaces, spaces,
      List.replicate_append_replicate, Nat.mul_succ]

/-- The indents from the outermost block to the innermost. -/
theorem NestedAt.map_indent (h : stack.NestedAt base) :
    stack.reverse.map Block.indent =
      (List.range stack.length).map fun k => base ++ spaces (2 * k) := by
  induction stack with
  | nil => rfl
  | cons b stack ih =>
    rw [List.reverse_cons, List.map_append, ih h.2, List.length_cons, List.range_succ,
      List.map_append, List.map_singleton, List.map_singleton, h.1]

end BlockStack

namespace Stage

open Walk

variable {s t u : Stage} {base : Text} {ns : List Node} {lines : List Text} {b : Block}
  {stack : BlockStack}

/-- The line with the number `o` is the header that **opened the chain** of a block, at the indent
of that block. -/
def HasOrigin (lines : List Text) (b : Block) (o : Nat) : Prop :=
  ∃ directive, isOpener directive = true ∧ lines[o]? = some (Header.line directive b.indent).value

/-- A line stays where it is while others are written. -/
theorem HasOrigin.append {o : Nat} (h : HasOrigin lines b o) (ls : List Text) :
    HasOrigin (lines ++ ls) b o := by
  obtain ⟨directive, hopener, hline⟩ := h
  refine ⟨directive, hopener, ?_⟩
  rw [List.getElem?_append_left (List.getElem?_eq_some_iff.1 hline).1, hline]

/-- **The invariant of a walk**: the open blocks are nested at its base, and each stands at the
indent of the header line that opened its chain. -/
structure Nested (base : Text) (s : Stage) : Prop where
  /-- The base stays what it was. -/
  base_eq : s.walk.base = base
  /-- Each block is one unit deeper than the block around it. -/
  blocks : s.walk.stack.NestedAt base
  /-- Each block stands at the indent of its chain. -/
  origins : List.Forall₂ (HasOrigin s.walk.lines) s.walk.stack s.origins

theorem nested_start (base : Text) (ns : List Node) : Nested base (start base ns) :=
  ⟨rfl, trivial, .nil⟩

theorem Nested.indent_eq (h : Nested base s) :
    s.walk.indent = base ++ spaces (2 * s.walk.stack.length) := by
  rw [Walk.indent, h.base_eq, h.blocks.indent_eq]

/-- A line that is written, blank or not, leaves the blocks as they are. -/
theorem Nested.emit {os : List Nat} {fs gs : List Fragment} {ms : List Node}
    (h : Nested base ⟨w, os, fs, ms⟩) (line : Text) : Nested base ⟨w.emit line, os, gs, ns⟩ := by
  unfold Walk.emit
  split
  · exact ⟨h.base_eq, h.blocks, h.origins⟩
  · exact ⟨h.base_eq, h.blocks, h.origins.imp fun _ _ ho => ho.append _⟩

/-- **Every step keeps the invariant.** -/
theorem Step.nested (h : Step limit depth s t) (hs : Nested base s) : Nested base t := by
  cases h with
  | text hn => exact ⟨hs.base_eq, hs.blocks, hs.origins⟩
  | node hn hline => exact hs.emit _
  | @opened w os f fs ns hf hopener =>
    refine ⟨hs.base_eq, ⟨hs.indent_eq, hs.blocks⟩, ?_⟩
    -- The line of the opener comes behind those written before, so its number is their count.
    refine .cons ⟨f.value, hopener, ?_⟩ (hs.origins.imp fun _ _ ho => ho.append _)
    exact List.getElem?_concat_length
  | placed hf hopener => exact hs.emit _
  | stray hw => exact ⟨hs.base_eq, hs.blocks, hs.origins⟩
  | @ended w os fs ns b stack hw hfs =>
    obtain ⟨hbase, hblocks, horigins⟩ := hs
    rw [hw] at hblocks horigins
    refine ⟨hbase, hblocks.2, ?_⟩
    cases horigins with
    | cons _ hrest => exact hrest.imp fun _ _ ho => ho.append _
  | @chained w os f fs ns b stack hw hf =>
    obtain ⟨hbase, hblocks, horigins⟩ := hs
    rw [hw] at hblocks horigins
    refine ⟨hbase, ⟨hblocks.1, hblocks.2⟩, ?_⟩
    cases horigins with
    | cons ho hrest => exact .cons (ho.append _) (hrest.imp fun _ _ ho => ho.append _)

/-- **Every stage that is reached keeps the invariant.** -/
theorem Reaches.nested (h : Reaches limit depth s t) (hs : Nested base s) : Nested base t := by
  induction h with
  | refl => exact hs
  | tail _ hstep ih => exact hstep.nested ih

/-- **What a closer does** to open blocks: it ends the innermost, or it puts a continuation in its
place, and leaves all others as they are. -/
theorem Step.of_close (h : Step limit depth t u) (hclose : t.fragments.head? = some .close)
    (hstack : t.walk.stack = b :: stack) :
    u.walk.lines = t.walk.lines ++ [b.indent ++ [.char '}']] ∧ u.walk.stack = stack ∧
        u.origins = t.origins.tail ∨
      ∃ continuation,
        u.walk.lines = t.walk.lines ++
          [b.indent ++ [.char '}', .char ' '] ++ (Header.line continuation []).value] ∧
        u.walk.stack = ⟨continuation, b.indent⟩ :: stack ∧ u.origins = t.origins := by
  cases h with
  | text hn => simp at hclose
  | node hn hline => simp at hclose
  | opened hf hopener => exact absurd (Option.some.inj hclose) hf
  | placed hf hopener => exact absurd (Option.some.inj hclose) hf
  | stray hw => exact absurd (hw.symm.trans hstack) (List.cons_ne_nil _ _).symm
  | ended hw hfs =>
    obtain ⟨rfl, rfl⟩ := List.cons.inj (hw.symm.trans hstack)
    exact .inl ⟨rfl, rfl, rfl⟩
  | chained hw hf =>
    obtain ⟨rfl, rfl⟩ := List.cons.inj (hw.symm.trans hstack)
    exact .inr ⟨_, rfl, rfl, rfl⟩

/-- **Every indent is a depth.** At every stage of every walk the open blocks stand, from the
outermost to the innermost, at the base and two spaces more each, and so does what comes next. A
closer is written at the indent of the header line that opened its chain, by itself or with a
continuation, and changes no other block. -/
theorem indents_of_reaches (h : Reaches limit depth (start base ns) t) :
    (t.resume limit depth).run.value = (Node.walk limit ns (.start base) depth).run.value ∧
      t.walk.stack.reverse.map Block.indent =
        (List.range t.walk.stack.length).map (fun k => base ++ spaces (2 * k)) ∧
      t.walk.indent = base ++ spaces (2 * t.walk.stack.length) ∧
      ∀ u b stack, Step limit depth t u → t.fragments.head? = some .close →
        t.walk.stack = b :: stack →
        ∃ o os directive, t.origins = o :: os ∧ isOpener directive = true ∧
          t.walk.lines[o]? = some (Header.line directive b.indent).value ∧
          (u.walk.lines = t.walk.lines ++ [b.indent ++ [.char '}']] ∧ u.walk.stack = stack ∧
              u.origins = os ∨
            ∃ continuation,
              u.walk.lines = t.walk.lines ++
                [b.indent ++ [.char '}', .char ' '] ++ (Header.line continuation []).value] ∧
              u.walk.stack = ⟨continuation, b.indent⟩ :: stack ∧ u.origins = o :: os) := by
  have hnested := h.nested (nested_start base ns)
  refine ⟨?_, hnested.blocks.map_indent, hnested.indent_eq, ?_⟩
  · rw [← Node.resume_nil, ← h.value_resume]
    rfl
  · intro u b stack hstep hclose hstack
    have horigins := hnested.origins
    rw [hstack] at horigins
    cases ho : t.origins with
    | nil =>
      rw [ho] at horigins
      cases horigins
    | cons o os =>
      rw [ho] at horigins
      obtain ⟨directive, hopener, hline⟩ := (List.forall₂_cons.1 horigins).1
      refine ⟨o, os, directive, rfl, hopener, hline, ?_⟩
      have hclosed := hstep.of_close hclose hstack
      rwa [ho] at hclosed

/-- Two blocks are open at a base that is no blank, and a closer takes a continuation along. -/
theorem indents_of_reaches_chain :
    ∃ t u, Reaches 1 0 (start ">".toText
        [.text (some "@if(a)\x7b @for(b)\x7b \x7d @else\x7b".toText)]) t ∧
      t.fragments = [.close, .header "@else\x7b".toText] ∧ Step 1 0 t u ∧
      t.walk.stack.reverse.map Block.indent = [">".toText, ">  ".toText] ∧
      t.walk.indent = ">    ".toText ∧
      ∃ (o : Nat) (directive : Text),
        t.walk.lines[o]? = some (Header.line directive ">  ".toText).value ∧
        u.walk.stack.head?.map Block.indent = some ">  ".toText := by
  have hcut : Fragment.segment "@if(a)\x7b @for(b)\x7b \x7d @else\x7b".toText =
      [.header "@if(a)\x7b".toText, .header "@for(b)\x7b".toText, .close,
        .header "@else\x7b".toText] := by
    decide +kernel
  have hreach := ((reaches_fragments hcut 1 0 ">".toText []).tail
    (.opened (by decide) (by decide +kernel))).tail (.opened (by decide) (by decide +kernel))
  have hchain : isChain (Fragment.header "@else\x7b".toText).value = true := by decide +kernel
  obtain ⟨-, hstack, hindent, hclosed⟩ := indents_of_reaches hreach
  obtain ⟨o, os, directive, -, -, hline, -⟩ := hclosed _ _ _ (.chained rfl hchain) rfl rfl
  exact ⟨_, _, hreach, rfl, .chained rfl hchain, hstack, hindent, o, directive, hline, rfl⟩

end Stage

end TemplateLayout
