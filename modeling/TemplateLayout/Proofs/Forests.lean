import Mathlib.Data.List.Chain
import TemplateLayout.Proofs.Stages

/-! # Block forests
Control-flow blocks nest, though no node says so. A forest is that nesting made explicit: lines,
nodes, and blocks with a body and continuations. Printing it needs no stack, since the indent of a
block is the indent of its place. A sequence of nodes that holds a forest is laid out as the forest
is printed, however its text is cut into nodes.

* `Forest`, `Chain` — forests, and the continuations of a block;
* `Forest.print` — the printer by recursion, `Forest.notes` the events on its way;
* `Forest.parts`, `Holds` — what a forest is made of, in order, and the sequences that hold it;
* `Forest.exists_resume` — a walk passes over a forest and leaves the open blocks as they are;
* `Forest.renderSequence_eq_print` — laying out a sequence prints the forest that it holds.
-/

namespace TemplateLayout

open Text Directive
open Fragment (segment Settled settled_segment)

/-! ## Forests -/

mutual

/-- A **block forest**, from its first item on. -/
inductive Forest where
  /-- There is nothing. -/
  | nil
  /-- A line of plain text. -/
  | text (value : Text) (opener : isOpener value = false) (chain : isChain value = false)
      (rest : Forest)
  /-- A node other than text. -/
  | node (n : Node) (markup : n.text? = none) (rest : Forest)
  /-- A block with its header, its body and its continuations. -/
  | block (header : Text) (opener : isOpener header = true) (body : Forest) (chain : Chain)
      (rest : Forest)

/-- The **continuations** of a block, each with a body of its own. -/
inductive Chain where
  /-- The block ends. -/
  | nil
  /-- A continuation. -/
  | cons (header : Text) (continues : isChain header = true) (body : Forest) (rest : Chain)

end

mutual

/-- **A forest as lines** at an indent: headers and closers at the indent, bodies one unit deeper,
and a continuation on the line of the closer before it. -/
def Forest.print (limit depth : Nat) : Forest → Text → Rendering (List Text)
  | .nil, _ => pure []
  | .text value _ _ rest, indent => do
    let lines ← rest.print limit depth indent
    pure ((indent ++ value) :: lines)
  | .node n _ rest, indent => do
    let line ← n.render limit indent depth
    let lines ← rest.print limit depth indent
    pure (line :: lines)
  | .block header _ body chain rest, indent => do
    let inside ← body.print limit depth (indent ++ indentUnit)
    let continued ← chain.print limit depth indent
    let lines ← rest.print limit depth indent
    pure ((Header.line header indent).value :: inside ++ continued ++
      (indent ++ [.char '}']) :: lines)

/-- The continuations of a block at the indent of the block. -/
def Chain.print (limit depth : Nat) : Chain → Text → Rendering (List Text)
  | .nil, _ => pure []
  | .cons header _ body rest, indent => do
    let inside ← body.print limit depth (indent ++ indentUnit)
    let lines ← rest.print limit depth indent
    pure ((indent ++ [.char '}', .char ' '] ++ (Header.line header []).value) :: inside ++ lines)

end

mutual

/-- Every node of a forest **shows** at the indent of its place: it is rendered, and not blank. -/
def Forest.Shows (limit depth : Nat) : Forest → Text → Prop
  | .nil, _ => True
  | .text _ _ _ rest, indent => rest.Shows limit depth indent
  | .node n _ rest, indent =>
    (∃ line, (n.render limit indent depth).run.value = .ok line ∧ allBlank line = false) ∧
      rest.Shows limit depth indent
  | .block _ _ body chain rest, indent =>
    body.Shows limit depth (indent ++ indentUnit) ∧ chain.Shows limit depth indent ∧
      rest.Shows limit depth indent

/-- Every node in the continuations of a block shows. -/
def Chain.Shows (limit depth : Nat) : Chain → Text → Prop
  | .nil, _ => True
  | .cons _ _ body rest, indent =>
    body.Shows limit depth (indent ++ indentUnit) ∧ rest.Shows limit depth indent

end

mutual

/-- The **notes** of a forest: those that its nodes leave, and no others. -/
def Forest.notes (limit depth : Nat) : Forest → Text → List Event
  | .nil, _ => []
  | .text _ _ _ rest, indent => rest.notes limit depth indent
  | .node n _ rest, indent =>
    (n.render limit indent depth).run.events ++ rest.notes limit depth indent
  | .block _ _ body chain rest, indent =>
    body.notes limit depth (indent ++ indentUnit) ++
      (chain.notes limit depth indent ++ rest.notes limit depth indent)

/-- The notes of the continuations of a block. -/
def Chain.notes (limit depth : Nat) : Chain → Text → List Event
  | .nil, _ => []
  | .cons _ _ body rest, indent =>
    body.notes limit depth (indent ++ indentUnit) ++ rest.notes limit depth indent

end

/-! ## Parts -/

/-- A **mark**: what stands together in one text node. -/
inductive Mark where
  /-- A line of plain text. -/
  | plain (value : Text)
  /-- The header of a block. -/
  | header (value : Text)
  /-- A closer with the header of the continuation. -/
  | chain (value : Text)
  /-- The last closer of a block. -/
  | close

/-- The fragments of a mark. -/
def Mark.fragments : Mark → List Fragment
  | .plain v => [.plain v]
  | .header v => [.header v]
  | .chain v => [.close, .header v]
  | .close => [.close]

/-- The fragments of marks, in order. -/
def Mark.all (ms : List Mark) : List Fragment := ms.flatMap Mark.fragments

/-- Marks are **apart** if none that follows the last closer of a block could be taken for its
continuation. -/
def Mark.Apart (ms : List Mark) : Prop :=
  ms.IsChain fun m m' => m = .close → ∀ f, m'.fragments.head? = some f → isChain f.value = false

/-- A **part** of a forest. -/
inductive Part where
  /-- A part that is text. -/
  | mark (m : Mark)
  /-- A node. -/
  | node (n : Node)

mutual

/-- **The parts of a forest**, in order. -/
def Forest.parts : Forest → List Part
  | .nil => []
  | .text value _ _ rest => .mark (.plain value) :: rest.parts
  | .node n _ rest => .node n :: rest.parts
  | .block header _ body chain rest =>
    .mark (.header header) :: (body.parts ++ (chain.parts ++ .mark .close :: rest.parts))

/-- The parts of the continuations of a block. -/
def Chain.parts : Chain → List Part
  | .nil => []
  | .cons header _ body rest => .mark (.chain header) :: (body.parts ++ rest.parts)

end

/-- A sequence of nodes **holds** parts: its text nodes hold marks, any number each, which are its
fragments, and every other node is a part itself. -/
inductive Holds : List Node → List Part → Prop where
  /-- Nothing holds nothing. -/
  | nil : Holds [] []
  /-- A text node holds some marks. -/
  | text {n : Node} {ns : List Node} {value : Text} {ms : List Mark} {ps : List Part}
      (hn : n.text? = some value) (hcut : segment value = Mark.all ms) (hms : Mark.Apart ms)
      (hns : Holds ns ps) : Holds (n :: ns) (ms.map .mark ++ ps)
  /-- Another node is a part. -/
  | node {n : Node} {ns : List Node} {ps : List Part} (hn : n.text? = none) (hns : Holds ns ps) :
      Holds (n :: ns) (.node n :: ps)

/-! ## What is ahead -/

/-- The marks `ms` of the text node at hand and the nodes `ns` behind it have the parts `ps`
**ahead**. -/
structure Ahead (ms : List Mark) (ns : List Node) (ps : List Part) : Prop where
  /-- The fragments of the marks are settled. -/
  settled : Settled (Mark.all ms)
  /-- The marks are apart. -/
  apart : Mark.Apart ms
  /-- What follows the marks is held by the nodes. -/
  holds : ∃ qs, ps = ms.map .mark ++ qs ∧ Holds ns qs

variable {limit depth : Nat} {n : Node} {ns : List Node} {m : Mark} {ms : List Mark}
  {ps : List Part} {v : Text} {fs : List Fragment} {w : Walk}

theorem Holds.ahead (h : Holds ns ps) : Ahead [] ns ps := ⟨trivial, .nil, ps, rfl, h⟩

/-- Behind a mark the others are ahead. -/
theorem Ahead.tail (h : Ahead (m :: ms) ns (.mark m :: ps)) : Ahead ms ns ps := by
  obtain ⟨hsettled, hapart, qs, hps, hqs⟩ := h
  exact ⟨hsettled.right, (List.isChain_cons.1 hapart).2, qs, (List.cons.inj hps).2, hqs⟩

/-- What comes **next** where no blank text node is left to pass over. -/
inductive Next : List Mark → List Node → List Part → Prop where
  /-- Nothing is left. -/
  | done : Next [] [] []
  /-- A mark. -/
  | mark {m : Mark} {ms : List Mark} {ns : List Node} {ps : List Part}
      (h : Ahead (m :: ms) ns (.mark m :: ps)) : Next (m :: ms) ns (.mark m :: ps)
  /-- A node other than text. -/
  | node {n : Node} {ns : List Node} {ps : List Part} (hn : n.text? = none)
      (h : Ahead [] ns ps) : Next [] (n :: ns) (.node n :: ps)

/-- **A walk passes over text nodes without fragments**, up to what comes next. -/
theorem Ahead.exists_next (limit depth : Nat) (h : Ahead ms ns ps) :
    ∃ ms' ns', Next ms' ns' ps ∧ ∀ w, Node.resume limit (Mark.all ms) ns w depth =
      Node.resume limit (Mark.all ms') ns' w depth := by
  cases ms with
  | cons m ms =>
    obtain ⟨qs, rfl, -⟩ := h.holds
    exact ⟨m :: ms, ns, .mark h, fun _ => rfl⟩
  | nil =>
    obtain ⟨qs, rfl, hqs⟩ := h.holds
    clear h
    induction hqs with
    | nil => exact ⟨[], [], .done, fun _ => rfl⟩
    | node hn hns => exact ⟨[], _, .node hn hns.ahead, fun _ => rfl⟩
    | @text n ns value ms ps hn hcut hms hns ih =>
      cases ms with
      | nil =>
        obtain ⟨ms', ns', hnext, hskip⟩ := ih
        refine ⟨ms', ns', hnext, fun w => ?_⟩
        rw [← hskip]
        exact (Node.resume_text hn ns w).trans (by rw [hcut])
      | cons m ms =>
        refine ⟨m :: ms, ns, .mark ⟨hcut ▸ settled_segment value, hms, _, rfl, hns⟩, fun w => ?_⟩
        exact (Node.resume_text hn ns w).trans (by rw [hcut])

/-! ## Steps -/

/-- A header that was cut out leaves no note as a line. -/
theorem Header.line_eq_pure (h : Settled (.header v :: fs)) (indent : Text) :
    Header.line v indent = pure (Header.line v indent).value := by
  obtain ⟨hd, hread, -⟩ := Header.exists_read h.1.1 h.1.2
  rw [Header.line, hread]
  rfl

namespace Walk

/-- Writes several lines. -/
def writeAll (w : Walk) (ls : List Text) : Walk := { w with lines := w.lines ++ ls }

theorem writeAll_nil (w : Walk) : w.writeAll [] = w := by
  rw [writeAll, List.append_nil]

theorem writeAll_writeAll (w : Walk) (ls ls' : List Text) :
    (w.writeAll ls).writeAll ls' = w.writeAll (ls ++ ls') := by
  simp only [writeAll, List.append_assoc]

/-- The walk **inside** one more block, with some more lines. -/
def inside (w : Walk) (b : Block) (ls : List Text) : Walk := ⟨w.base, b :: w.stack, w.lines ++ ls⟩

theorem writeAll_inside (w : Walk) (b : Block) (ls ls' : List Text) :
    (w.inside b ls).writeAll ls' = w.inside b (ls ++ ls') := by
  simp only [writeAll, inside, List.append_assoc]

/-- The closer of a block leaves the walk outside it. -/
theorem endBlock_inside (w : Walk) (b : Block) (ls : List Text) :
    (w.inside b ls).endBlock b w.stack = w.writeAll (ls ++ [b.indent ++ [.char '}']]) := by
  simp only [endBlock, write, inside, writeAll, List.append_assoc]

/-- A continuation leaves the walk inside another block at the same indent. -/
theorem continueBlock_inside (w : Walk) (b : Block) (ls : List Text) (directive header : Text) :
    (w.inside b ls).continueBlock b w.stack directive header =
      w.inside ⟨directive, b.indent⟩ (ls ++ [b.indent ++ [.char '}', .char ' '] ++ header]) := by
  simp only [continueBlock, write, inside, BlockStack.push, List.append_assoc]

/-- A plain text that opens no block is a line, without a note. -/
theorem place_eq_pure (h : Settled (.plain v :: fs)) (hopener : isOpener v = false) (w : Walk) :
    w.place v = pure (w.writeAll [w.indent ++ v]) := by
  have hvalue := value_place h w
  rw [Fragment.value, if_neg (by simp [hopener])] at hvalue
  have hevents : (w.place v).events = [] := by
    have htrim : trim v = v := h.trimmed
    have hne : v ≠ [] := h.ne_nil
    rw [place_of_not_isOpener hopener, Logged.events_map, Text.layout, htrim,
      if_neg (by simpa using hne), if_neg (by simp [hopener])]
    split <;> rfl
  rw [Logged.eq_pure_of_events hevents, hvalue]
  rfl

end Walk

namespace Node

open Walk

/-- A plain text is written. -/
theorem resume_plain (h : Settled (.plain v :: fs)) (hopener : isOpener v = false)
    (ns : List Node) (w : Walk) :
    resume limit (.plain v :: fs) ns w depth =
      resume limit fs ns (w.writeAll [w.indent ++ v]) depth := by
  rw [resume_of_feed (feed_of_ne (by simp) fs w), Fragment.value, place_eq_pure h hopener,
    liftM_pure, pure_bind]

/-- A header opens its block. -/
theorem resume_header (h : Settled (.header v :: fs)) (hopener : isOpener v = true)
    (ns : List Node) (w : Walk) :
    resume limit (.header v :: fs) ns w depth =
      resume limit fs ns (w.inside ⟨v, w.indent⟩ [(Header.line v w.indent).value]) depth := by
  rw [resume_of_feed (feed_of_ne (by simp) fs w), Fragment.value, place_of_isOpener hopener,
    Header.line_eq_pure h, map_pure, liftM_pure, pure_bind]
  rfl

/-- A closer and a header continue the innermost block. -/
theorem resume_chain (h : Settled (.header v :: fs)) (hchain : isChain v = true)
    (ns : List Node) (w : Walk) (b : Block) (ls : List Text) :
    resume limit (.close :: .header v :: fs) ns (w.inside b ls) depth =
      resume limit fs ns (w.inside ⟨v, b.indent⟩
        (ls ++ [b.indent ++ [.char '}', .char ' '] ++ (Header.line v []).value])) depth := by
  have hf : isChain (Fragment.header v).value = true := hchain
  rw [resume_of_feed (feed_close_chain rfl hf fs), Fragment.value, Header.line_eq_pure h,
    liftM_pure, pure_bind, continueBlock_inside]
  rfl

/-- A closer ends the innermost block. -/
theorem resume_close (hfs : ∀ f, fs.head? = some f → isChain f.value = false) (ns : List Node)
    (w : Walk) (b : Block) (ls : List Text) :
    resume limit (.close :: fs) ns (w.inside b ls) depth =
      resume limit fs ns (w.writeAll (ls ++ [b.indent ++ [.char '}']])) depth := by
  rw [resume, feed_close_end rfl hfs, endBlock_inside]
  rfl

/-- A node that shows is written. -/
theorem resume_shown {line : Text} (hn : n.text? = none)
    (hline : (n.render limit w.indent depth).run.value = .ok line)
    (hshown : allBlank line = false) (ns : List Node) :
    resume limit [] (n :: ns) w depth =
      n.render limit w.indent depth >>= fun line =>
        resume limit [] ns (w.writeAll [line]) depth := by
  rw [resume_node hn]
  refine Logged.bind_congr_of_ok hline ?_
  rw [emit, if_neg (by simp [hshown])]
  rfl

end Node

/-- The closer of a block ends it: no mark behind it is taken along. -/
theorem Ahead.isChain_head (h : Ahead (.close :: ms) ns ps) {f : Fragment}
    (hf : (Mark.all ms).head? = some f) : isChain f.value = false := by
  cases ms with
  | nil => simp [Mark.all] at hf
  | cons m ms =>
    refine (List.isChain_cons_cons.1 h.apart).1 rfl f ?_
    cases m <;> simpa [Mark.all, Mark.fragments] using hf

/-! ## The walk over a forest -/

/-- The directive of a block behind its continuations: the last of them, if there is one. -/
def Chain.last : Chain → Text → Text
  | .nil, directive => directive
  | .cons header _ _ rest, _ => rest.last header

mutual

/-- **A walk passes over a forest** by writing what the printer prints at the indent of the walk,
and leaves the open blocks as they are. -/
theorem Forest.exists_resume {limit depth : Nat} {ms : List Mark} {ns : List Node}
    {ps : List Part} (F : Forest) (h : Ahead ms ns (F.parts ++ ps)) :
    ∃ ms' ns', Ahead ms' ns' ps ∧ ∀ w : Walk, F.Shows limit depth w.indent →
      Node.resume limit (Mark.all ms) ns w depth =
        F.print limit depth w.indent >>= fun ls =>
          Node.resume limit (Mark.all ms') ns' (w.writeAll ls) depth := by
  -- What is left behind the forest is found before any walk is given: the lines of a body are known
  -- only when its nodes are rendered, and what follows must not depend on them.
  match F with
  | .nil =>
    refine ⟨ms, ns, h, fun w _ => ?_⟩
    rw [Forest.print, pure_bind, Walk.writeAll_nil]
  | .text value opener chain rest =>
    obtain ⟨_, _, hnext, hskip⟩ := h.exists_next limit depth
    cases hnext with
    | mark hmark =>
      obtain ⟨ms', ns', h', hrest⟩ := rest.exists_resume hmark.tail
      refine ⟨ms', ns', h', fun w hw => ?_⟩
      rw [hskip, Forest.print, bind_assoc]
      refine (Node.resume_plain hmark.settled opener _ w).trans ?_
      refine (hrest (w.writeAll [w.indent ++ value]) hw).trans (bind_congr fun lines => ?_)
      rw [Walk.writeAll_writeAll, pure_bind]
      rfl
  | .node n markup rest =>
    obtain ⟨_, _, hnext, hskip⟩ := h.exists_next limit depth
    cases hnext with
    | node hn hns =>
      obtain ⟨ms', ns', h', hrest⟩ := rest.exists_resume hns
      refine ⟨ms', ns', h', fun w hw => ?_⟩
      obtain ⟨⟨line, hline, hshown⟩, hw⟩ := hw
      rw [hskip, Forest.print, bind_assoc]
      refine (Node.resume_shown hn hline hshown _).trans (bind_congr fun line => ?_)
      refine (hrest (w.writeAll [line]) hw).trans ?_
      simp only [bind_assoc, pure_bind, Walk.writeAll_writeAll]
      rfl
  | .block header opener body chain rest =>
    rw [Forest.parts, List.cons_append, List.append_assoc, List.append_assoc] at h
    obtain ⟨_, _, hnext, hskip⟩ := h.exists_next limit depth
    cases hnext with
    | mark hopen =>
      obtain ⟨ms₁, ns₁, hafter, hbody⟩ := body.exists_resume hopen.tail
      obtain ⟨ms₂, ns₂, hend, hchain⟩ := chain.exists_resume hafter
      obtain ⟨_, _, hnext, hskip'⟩ := hend.exists_next limit depth
      cases hnext with
      | mark hclose =>
        obtain ⟨ms', ns', h', hrest⟩ := rest.exists_resume hclose.tail
        refine ⟨ms', ns', h', fun w hw => ?_⟩
        obtain ⟨hinside, hcontinued, hw⟩ := hw
        rw [hskip, Forest.print]
        simp only [bind_assoc, pure_bind]
        -- The header opens the block, body and continuations leave it open, the closer ends it.
        refine (Node.resume_header hopen.settled opener _ w).trans ?_
        refine (hbody _ hinside).trans (bind_congr fun inside => ?_)
        rw [Walk.writeAll_inside]
        refine (hchain w _ _ hcontinued).trans (bind_congr fun continued => ?_)
        rw [hskip']
        refine (Node.resume_close (fun f hf => hclose.isChain_head hf) ..).trans ?_
        refine (hrest (w.writeAll _) hw).trans (bind_congr fun lines => ?_)
        simp only [Walk.writeAll_writeAll, List.append_assoc]
        rfl

/-- A walk passes over the continuations of the innermost block. -/
theorem Chain.exists_resume {limit depth : Nat} {ms : List Mark} {ns : List Node}
    {ps : List Part} (C : Chain) (h : Ahead ms ns (C.parts ++ ps)) :
    ∃ ms' ns', Ahead ms' ns' ps ∧ ∀ (w : Walk) (b : Block) (before : List Text),
      C.Shows limit depth b.indent →
      Node.resume limit (Mark.all ms) ns (w.inside b before) depth =
        C.print limit depth b.indent >>= fun ls =>
          Node.resume limit (Mark.all ms') ns'
            (w.inside ⟨C.last b.directive, b.indent⟩ (before ++ ls)) depth := by
  match C with
  | .nil =>
    refine ⟨ms, ns, h, fun w b before _ => ?_⟩
    rw [Chain.print, pure_bind, List.append_nil]
    rfl
  | .cons header continues body rest =>
    rw [Chain.parts, List.cons_append, List.append_assoc] at h
    obtain ⟨_, _, hnext, hskip⟩ := h.exists_next limit depth
    cases hnext with
    | mark hmark =>
      obtain ⟨ms₁, ns₁, hafter, hbody⟩ := body.exists_resume hmark.tail
      obtain ⟨ms', ns', h', hrest⟩ := rest.exists_resume hafter
      refine ⟨ms', ns', h', fun w b before hw => ?_⟩
      obtain ⟨hinside, hw⟩ := hw
      rw [hskip, Chain.print]
      simp only [bind_assoc, pure_bind]
      refine (Node.resume_chain hmark.settled continues ..).trans ?_
      refine (hbody _ hinside).trans (bind_congr fun inside => ?_)
      rw [Walk.writeAll_inside]
      refine (hrest w ⟨header, b.indent⟩ _ hw).trans (bind_congr fun lines => ?_)
      simp only [List.append_assoc]
      rfl

end

/-! ## The law -/

mutual

/-- A forest whose nodes show is printed, and only its nodes leave notes. -/
theorem Forest.run_print {limit depth : Nat} {indent : Text} (F : Forest)
    (h : F.Shows limit depth indent) :
    ∃ lines, (F.print limit depth indent).run = ⟨F.notes limit depth indent, .ok lines⟩ := by
  match F with
  | .nil => exact ⟨[], rfl⟩
  | .text value _ _ rest =>
    obtain ⟨lines, hrest⟩ := rest.run_print h
    exact ⟨_, Logged.run_bind_pure_of_run hrest _⟩
  | .node n _ rest =>
    obtain ⟨⟨line, hline, -⟩, h⟩ := h
    obtain ⟨lines, hrest⟩ := rest.run_print h
    refine ⟨line :: lines, ?_⟩
    rw [Forest.print, Logged.run_bind_of_ok hline, Logged.run_bind_pure_of_run hrest, Forest.notes]
  | .block header _ body chain rest =>
    obtain ⟨hinside, hcontinued, h⟩ := h
    obtain ⟨inside, hbody⟩ := body.run_print hinside
    obtain ⟨continued, hchain⟩ := chain.run_print hcontinued
    obtain ⟨lines, hrest⟩ := rest.run_print h
    exact ⟨_, Logged.run_bind_of_run hbody
      (Logged.run_bind_of_run hchain (Logged.run_bind_pure_of_run hrest _))⟩

theorem Chain.run_print {limit depth : Nat} {indent : Text} (C : Chain)
    (h : C.Shows limit depth indent) :
    ∃ lines, (C.print limit depth indent).run = ⟨C.notes limit depth indent, .ok lines⟩ := by
  match C with
  | .nil => exact ⟨[], rfl⟩
  | .cons header _ body rest =>
    obtain ⟨hinside, h⟩ := h
    obtain ⟨inside, hbody⟩ := body.run_print hinside
    obtain ⟨lines, hrest⟩ := rest.run_print h
    exact ⟨_, Logged.run_bind_of_run hbody (Logged.run_bind_pure_of_run hrest _)⟩

end

/-- The walk over a sequence that holds a forest writes the lines of the printer and ends outside
all blocks. -/
theorem Forest.walk_eq_print (F : Forest) {base : Text} (hns : Holds ns F.parts)
    (hF : F.Shows limit depth base) :
    Node.walk limit ns (.start base) depth =
      (fun lines => ⟨base, [], lines⟩) <$> F.print limit depth base := by
  have hahead : Ahead [] ns (F.parts ++ []) := by
    rw [List.append_nil]
    exact hns.ahead
  obtain ⟨ms, ns', h, hwalk⟩ := F.exists_resume hahead
  obtain ⟨_, _, hnext, hskip⟩ := h.exists_next limit depth
  cases hnext with
  | done =>
    rw [← Node.resume_nil, map_eq_pure_bind]
    refine (hwalk (.start base) hF).trans (bind_congr fun lines => ?_)
    rw [hskip]
    exact Node.resume_nil [] _

/-- **Laying out a sequence of nodes prints the forest that it holds.** However the forest is cut
into text nodes and other nodes, the sequence is laid out with the lines of the printer, no block is
left open, and no note is left but those of the nodes in it, so that no closer is dropped. -/
theorem Forest.renderSequence_eq_print (F : Forest) {base : Text} (hns : Holds ns F.parts)
    (hF : F.Shows limit depth base) :
    Node.renderSequence limit ns base depth = F.print limit depth base ∧
      ∃ lines, (F.print limit depth base).run = ⟨F.notes limit depth base, .ok lines⟩ ∧
        (Node.walk limit ns (.start base) depth).run.value = .ok ⟨base, [], lines⟩ := by
  have hwalk := F.walk_eq_print hns hF
  obtain ⟨lines, hrun⟩ := F.run_print hF
  refine ⟨?_, lines, hrun, ?_⟩
  · rw [Node.renderSequence, hwalk, bind_map_left]
    exact bind_pure _
  · rw [hwalk, map_eq_pure_bind, Logged.value_bind_of_ok (congrArg Logged.value hrun)]
    rfl

/-- A block with a continuation around an element and a nested block, cut into four text nodes, one
of them blank. -/
theorem Forest.renderSequence_eq_print_chain :
    (Node.renderSequence 1
      [.text (some "@if(a)\x7b b".toText), .element "i".toText [] [], .text none,
        .text (some "\x7d @else\x7b @for(c)\x7b".toText), .text (some "\x7d \x7d".toText)]
      [] 0).run.value =
      .ok ["@if (a) \x7b".toText, "  b".toText, "  <i></i>".toText, "\x7d @else \x7b".toText,
        "  @for (c) \x7b".toText, "  \x7d".toText, "\x7d".toText] := by
  let F : Forest :=
    .block "@if(a)\x7b".toText (by decide +kernel)
      (.text "b".toText (by decide +kernel) (by decide +kernel)
        (.node (.element "i".toText [] []) rfl .nil))
      (.cons "@else\x7b".toText (by decide +kernel)
        (.block "@for(c)\x7b".toText (by decide +kernel) .nil .nil .nil) .nil) .nil
  have hopen : segment "@if(a)\x7b b".toText =
      Mark.all [.header "@if(a)\x7b".toText, .plain "b".toText] := by
    decide +kernel
  have hblank : segment [] = Mark.all [] := by decide +kernel
  have hchain : segment "\x7d @else\x7b @for(c)\x7b".toText =
      Mark.all [.chain "@else\x7b".toText, .header "@for(c)\x7b".toText] := by
    decide +kernel
  have hclose : segment "\x7d \x7d".toText = Mark.all [.close, .close] := by decide +kernel
  have hF : F.Shows 1 0 [] := ⟨⟨⟨"  <i></i>".toText, rfl, by decide⟩, trivial⟩,
    ⟨⟨trivial, trivial, trivial⟩, trivial⟩, trivial⟩
  refine (congrArg (fun x => x.run.value) (F.renderSequence_eq_print ?_ hF).1).trans ?_
  · exact .text rfl hopen (by simp [Mark.Apart]) (.node rfl (.text rfl hblank .nil
      (.text rfl hchain (by simp [Mark.Apart])
        (.text rfl hclose (by simp [Mark.Apart, Mark.fragments, Fragment.isChain_close]) .nil))))
  · decide +kernel

end TemplateLayout
