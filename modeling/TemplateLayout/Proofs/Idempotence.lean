import TemplateLayout.Document
import TemplateLayout.Proofs.Walks

/-! # Formatting is idempotent
What a text is formatted to is formatted to itself, unless a closer was dropped. The lines of a walk
spell fragments again, one for each that was fed, and those fragments move a second walk in step
with the first: the same lines are written and the same blocks are open.

* `Fragment.respell` — a fragment as it is cut out of its own header line;
* `Fragment.Respelled` — fragments of which some are respelled;
* `Walk.Alike` — walks at the same indents;
* `Walk.Echo` — lines that spell fragments for which a walk writes them again;
* `Walk.exists_echo` — the lines of every walk without a dropped closer are such lines;
* `Node.formatDocument_ofText_idempotent` — the law.
-/

namespace TemplateLayout

open Text Piece Token Directive

variable {v : Text} {f g : Fragment} {fs gs : List Fragment}

/-! ## Respelled fragments -/

namespace Fragment

/-- A fragment **respelled**: a header is what its line is cut into, anything else stays. -/
def respell : Fragment → Fragment
  | .header v => .header (Interpolation.normalize (Header.spoken v))
  | f => f

/-- A respelled fragment opens or continues a block if the fragment does, and says the same line. -/
theorem respell_spec (h : Settled (f :: fs)) :
    isOpener (respell f).value = isOpener f.value ∧ isChain (respell f).value = isChain f.value ∧
      Header.spoken (respell f).value = Header.spoken f.value := by
  cases f with
  | plain v => exact ⟨rfl, rfl, rfl⟩
  | close => exact ⟨rfl, rfl, rfl⟩
  | header v =>
    obtain ⟨hd, hread, -, -, hread', hopener, hchain⟩ := Header.exists_read h.1.1 h.1.2
    rw [respell, value, value, Header.spoken_of_read hread]
    exact ⟨hopener, hchain, Header.spoken_of_read hread'⟩

/-- What a fragment says spells it respelled, where it opens or continues a block. -/
theorem spells_spoken (h : Settled (f :: fs))
    (hkey : isOpener f.value = true ∨ isChain f.value = true) :
    Spells (Header.spoken f.value) (respell f) := by
  cases f with
  | plain v =>
    rw [value, Header.spoken_of_read_none (Header.read_eq_none_of_isPlain h.1 hkey), h.1.trimmed]
    exact .plain v
  | header v =>
    obtain ⟨hd, hread, hheader, -⟩ := Header.exists_read h.1.1 h.1.2
    rw [respell, value, Header.spoken_of_read hread]
    exact .header hheader
  | close => exact absurd hkey (by decide +kernel)

/-- Respelling a header makes no `}}`. -/
theorem splitClose_respell (h : Settled (f :: fs)) (hf : splitClose f.value = none) :
    splitClose (respell f).value = none := by
  cases f with
  | plain v => exact hf
  | close => exact hf
  | header v =>
    rw [value] at hf
    obtain ⟨hd, hread, -, hvisible, -⟩ := Header.exists_read h.1.1 h.1.2
    -- Without spans the closing brace is not among the pieces, so it is not there at all.
    have hclose : .char '}' ∉ v := by
      obtain ⟨init, hlex, -, -, hinit, -⟩ := takeHeader_eq_some_iff_exists.1 h.1.1
      intro hmem
      have hpiece : Piece.char '}' ∈ lex v := by
        rw [lex_of_splitClose_none hf]
        exact List.mem_map_of_mem hmem
      rw [hlex, List.mem_cons, List.mem_append] at hpiece
      rcases hpiece with hp | hp | hp
      · simp at hp
      · exact hinit _ hp (.inr rfl)
      · simp at hp
    refine splitClose_of_notMem fun hmem => hclose ?_
    have hmem' : .char '}' ∈ visible (Interpolation.normalize hd.write) := by
      rw [respell, value, Header.spoken_of_read hread] at hmem
      exact List.mem_filter.2 ⟨hmem, by decide⟩
    rw [visible_normalize, hvisible] at hmem'
    exact (List.mem_filter.1 hmem').1

/-- Fragments of which some are **respelled**. -/
inductive Respelled : List Fragment → List Fragment → Prop where
  /-- There is nothing to respell. -/
  | nil : Respelled [] []
  /-- The first stays. -/
  | keep (f : Fragment) {fs gs : List Fragment} (h : Respelled fs gs) :
      Respelled (f :: fs) (f :: gs)
  /-- The first is respelled. -/
  | respell (f : Fragment) {fs gs : List Fragment} (h : Respelled fs gs) :
      Respelled (f :: fs) (respell f :: gs)

/-- Respelling changes no kind. -/
theorem Respelled.startsHeader_eq (h : Respelled fs gs) : startsHeader gs = startsHeader fs := by
  cases h with
  | nil => rfl
  | keep f h => cases f <;> rfl
  | respell f h => cases f <;> rfl

theorem Respelled.startsPlain_eq (h : Respelled fs gs) : startsPlain gs = startsPlain fs := by
  cases h with
  | nil => rfl
  | keep f h => cases f <;> rfl
  | respell f h => cases f <;> rfl

theorem Respelled.splitClose_none (h : Respelled fs gs) (hfs : Settled fs)
    (hnone : ∀ f ∈ fs, splitClose f.value = none) : ∀ g ∈ gs, splitClose g.value = none := by
  induction h with
  | nil => exact hnone
  | keep f h ih =>
    intro g hg
    rcases List.mem_cons.1 hg with rfl | hg
    · exact hnone g List.mem_cons_self
    · exact ih hfs.tail (fun f hf => hnone f (List.mem_cons_of_mem _ hf)) g hg
  | respell f h ih =>
    intro g hg
    rcases List.mem_cons.1 hg with rfl | hg
    · exact splitClose_respell hfs (hnone f List.mem_cons_self)
    · exact ih hfs.tail (fun f hf => hnone f (List.mem_cons_of_mem _ hf)) g hg

/-- Plain text stays plain before respelled fragments. -/
theorem IsPlain.respelled (h : IsPlain v fs) (hfs : Settled fs) (hr : Respelled fs gs) :
    IsPlain v gs where
  ne_nil := h.ne_nil
  trimmed := h.trimmed
  normal := h.normal
  noCloser := h.noCloser
  noHeader := h.noHeader
  noJoin := by
    rw [hr.startsHeader_eq]
    exact h.noJoin
  separate := by
    rw [hr.startsPlain_eq]
    exact h.separate
  noSpan := fun ho => hr.splitClose_none hfs (h.noSpan ho)

/-- **Respelled fragments are settled** if the fragments were. -/
theorem Respelled.settled (h : Respelled fs gs) (hfs : Settled fs) : Settled gs := by
  induction h with
  | nil => trivial
  | keep f h ih =>
    cases f with
    | close => exact ih hfs
    | header v => exact ⟨hfs.1, ih hfs.2⟩
    | plain v => exact ⟨hfs.1.respelled hfs.2 h, ih hfs.2⟩
  | respell f h ih =>
    cases f with
    | close => exact ih hfs
    | plain v => exact ⟨hfs.1.respelled hfs.2 h, ih hfs.2⟩
    | header v =>
      obtain ⟨hd, hread, hheader, -⟩ := Header.exists_read hfs.1.1 hfs.1.2
      have hline := isHeader_of_takeHeader (lexed_lex _) hheader
      refine ⟨?_, ih hfs.2⟩
      rw [Header.spoken_of_read hread]
      exact hline

end Fragment

/-! ## Walks in step -/

namespace Walk

open Fragment

variable {w w' : Walk} {b b' : Block} {stack stack' : BlockStack}

/-- Walks are **alike** if their next lines, and those behind every open block, stand at the same
indents. -/
structure Alike (w w' : Walk) : Prop where
  /-- The indents outside all blocks are the same. -/
  base : w.base = w'.base
  /-- The open blocks have the same indents. -/
  blocks : w.stack.map Block.indent = w'.stack.map Block.indent

theorem Alike.indent_eq (h : Alike w w') : w.indent = w'.indent := by
  obtain ⟨hbase, hblocks⟩ := h
  unfold Walk.indent BlockStack.indent BlockStack.top?
  cases hw : w.stack with
  | nil =>
    rw [hw, List.map_nil, eq_comm, List.map_eq_nil_iff] at hblocks
    rw [hblocks, hbase]
  | cons b stack =>
    rw [hw, List.map_cons, eq_comm, List.map_eq_cons_iff] at hblocks
    obtain ⟨b', stack', hw', hindent, -⟩ := hblocks
    rw [hw']
    show b.contentIndent = b'.contentIndent
    rw [Block.contentIndent, Block.contentIndent, hindent]

theorem Alike.write (h : Alike w w') (l l' : Text) : Alike (w.write l) (w'.write l') :=
  ⟨h.base, h.blocks⟩

theorem Alike.openBlock (h : Alike w w') (d d' l l' : Text) :
    Alike (w.openBlock d l) (w'.openBlock d' l') where
  base := h.base
  blocks := by
    show w.indent :: w.stack.map Block.indent = w'.indent :: w'.stack.map Block.indent
    rw [h.indent_eq, h.blocks]

/-- Where one of two walks can end a block, so can the other, at the same indent. -/
theorem Alike.exists_block (h : Alike w w') (hblank : w.BlankIndents) (hw : w.stack = b :: stack) :
    ∃ b' stack', w'.stack = b' :: stack' ∧ b'.indent = b.indent ∧ allBlank b'.indent = true ∧
      Alike (w.endBlock b stack) (w'.endBlock b' stack') ∧
      ∀ d d' l l', Alike (w.continueBlock b stack d l) (w'.continueBlock b' stack' d' l') := by
  have hblocks := h.blocks
  rw [hw, List.map_cons, eq_comm, List.map_eq_cons_iff] at hblocks
  obtain ⟨b', stack', hw', hindent, hrest⟩ := hblocks
  refine ⟨b', stack', hw', hindent, ?_, ⟨h.base, hrest.symm⟩, fun d d' l l' => ⟨h.base, ?_⟩⟩
  · rw [hindent]
    exact hblank.blocks b (hw ▸ List.mem_cons_self)
  · show b.indent :: stack.map Block.indent = b'.indent :: stack'.map Block.indent
    rw [hindent, hrest]

/-- The text of lines with a line feed before each. -/
def fed (ls : List Text) : Text := ls.flatMap (.char '\n' :: ·)

/-- Fragments `gs` **echo** the fragments `fs` in the lines `ls`: they are those fragments
respelled, the lines spell them, and the walk `w` writes the lines for them. -/
structure Echo (w : Walk) (fs gs : List Fragment) (ls : List Text) : Prop where
  /-- Some of the fragments are respelled. -/
  respelled : Respelled fs gs
  /-- The lines spell the fragments. -/
  spelled : Spelled gs (fed ls)
  /-- Every fragment shows in a line. -/
  ne_nil : gs ≠ [] → ls ≠ []
  /-- The walk writes the lines. -/
  lines : (feed gs w).value.lines = w.lines ++ ls

/-- Lines spell what the first of them spells, then what the others spell. -/
theorem Echo.spelled_cons {ls : List Text} {indent u : Text} (h : Echo w fs gs ls)
    (hindent : allBlank indent = true) (hu : Spells u g) :
    Spelled (g :: gs) (indent ++ (u ++ fed ls)) := by
  refine .cons hindent hu h.spelled ?_
  intro hne
  cases ls with
  | nil => exact absurd rfl (h.ne_nil hne)
  | cons l ls => exact isBlank_lineFeed

/-- A line at an indent spells a fragment before the others. -/
theorem Echo.spelled_line {ls : List Text} {indent u : Text} (h : Echo w fs gs ls)
    (hindent : allBlank indent = true) (hu : Spells u g) :
    Spelled (g :: gs) (fed ((indent ++ u) :: ls)) := by
  have hline : allBlank (.char '\n' :: indent) = true := by
    rw [allBlank_cons, hindent]
    decide
  simpa [fed] using h.spelled_cons hline hu

theorem Echo.nil (w : Walk) : Echo w [] [] [] where
  respelled := .nil
  spelled := .nil rfl
  ne_nil := fun h => absurd rfl h
  lines := by rw [feed_nil]; simp

/-- **A step that places a fragment** is echoed by one that places it, respelled where it opens a
block. -/
theorem exists_echo_place (hf : f ≠ .close) (hfs : Settled (f :: fs)) (hw : Alike w w')
    (hblank : w.BlankIndents) :
    ∃ l, (w.place f.value).value.lines = w.lines ++ [l] ∧
      ∃ w'', Alike (w.place f.value).value w'' ∧
        ∀ gs ls, Echo w'' fs gs ls → ∃ g, Echo w' (f :: fs) (g :: gs) (l :: ls) := by
  rw [value_place hfs w]
  split
  · next hopener =>
    -- The header line is read back as the header respelled, which opens its block again.
    refine ⟨w.indent ++ Header.spoken f.value, rfl,
      w'.openBlock (respell f).value (w.indent ++ Header.spoken f.value), hw.openBlock .., ?_⟩
    intro gs ls h
    obtain ⟨hopener', -, hspoken⟩ := respell_spec hfs
    have hsettled := (Respelled.respell f h.respelled).settled hfs
    have hne : respell f ≠ .close := by
      cases f with
      | close => exact absurd rfl hf
      | plain v => exact Fragment.noConfusion
      | header v => exact Fragment.noConfusion
    refine ⟨respell f, .respell f h.respelled, ?_, by simp, ?_⟩
    · exact h.spelled_line hblank.indent (spells_spoken hfs (.inl hopener))
    · rw [feed_of_ne hne, Logged.value_bind, value_place hsettled, if_pos (hopener'.trans hopener),
        hspoken, ← hw.indent_eq, h.lines]
      simp [openBlock, Walk.write]
  · next hopener =>
    -- Anything else is written as it stands and read back as it is.
    refine ⟨w.indent ++ f.value, rfl, w'.write (w.indent ++ f.value), hw.write .., ?_⟩
    intro gs ls h
    have hsettled := (Respelled.keep f h.respelled).settled hfs
    refine ⟨f, .keep f h.respelled, ?_, by simp, ?_⟩
    · exact h.spelled_line hblank.indent hfs.spells
    · rw [feed_of_ne hf, Logged.value_bind, value_place hsettled, if_neg hopener, ← hw.indent_eq,
        h.lines]
      simp

/-- A closer that ends a block is echoed by one that does. -/
theorem Echo.endBlock {ls : List Text} (h : Echo (w.endBlock b stack) fs gs ls)
    (hw : w.stack = b :: stack) (hb : allBlank b.indent = true)
    (hgs : ∀ g, gs.head? = some g → isChain g.value = false) :
    Echo w (.close :: fs) (.close :: gs) ((b.indent ++ [.char '}']) :: ls) where
  respelled := .keep .close h.respelled
  spelled := h.spelled_line hb .close
  ne_nil := by simp
  lines := by
    rw [feed_close_end hw hgs, h.lines]
    simp [Walk.endBlock, Walk.write]

/-- A closer that takes a fragment along is echoed by one that takes it along, respelled. -/
theorem Echo.continueBlock {ls : List Text} (hfs : Settled (f :: fs))
    (hchain : isChain f.value = true)
    (h : Echo (w.continueBlock b stack (respell f).value (Header.spoken f.value)) fs gs ls)
    (hw : w.stack = b :: stack) (hb : allBlank b.indent = true) :
    Echo w (.close :: f :: fs) (.close :: respell f :: gs)
      ((b.indent ++ [.char '}', .char ' '] ++ Header.spoken f.value) :: ls) where
  respelled := .keep .close (.respell f h.respelled)
  spelled := by
    have hline : allBlank (.char '\n' :: b.indent) = true := by
      rw [allBlank_cons, hb]
      decide
    have hspace : allBlank [.char ' '] = true := by decide
    have hspelled := Spelled.cons hline .close
      (h.spelled_cons hspace (spells_spoken hfs (.inr hchain)))
      (fun _ => isBlank_space)
    simpa [fed] using hspelled
  ne_nil := by simp
  lines := by
    obtain ⟨-, hchain', hspoken⟩ := respell_spec hfs
    have hline : (Header.line (respell f).value []).value = Header.spoken f.value := hspoken
    rw [feed_close_chain hw (hchain'.trans hchain), Logged.value_bind, hline, h.lines]
    simp [Walk.continueBlock, Walk.write]

/-- Fragments that echo others continue a block at the start only if those do. -/
theorem Echo.head?_isChain {ls : List Text} (h : Echo w (f :: fs) gs ls) (hfs : Settled (f :: fs))
    (hf : isChain f.value = false) : ∀ g, gs.head? = some g → isChain g.value = false := by
  intro g hg
  cases h.respelled with
  | keep f _ =>
    obtain rfl := Option.some.inj hg
    exact hf
  | respell f _ =>
    obtain rfl := Option.some.inj hg
    rw [(respell_spec hfs).2.1, hf]

/-- **The lines of a walk lead back to it.** Where no closer is dropped, the lines that a walk
writes for settled fragments spell fragments that move every walk alike in step with it. -/
theorem exists_echo (hfs : Settled fs) (hw : Alike w w') (hblank : w.BlankIndents)
    (hstray : .strayCloser ∉ (feed fs w).events) :
    ∃ gs ls, (feed fs w).value.lines = w.lines ++ ls ∧ Echo w' fs gs ls := by
  -- Each case of the walk adds one line in front of those that the induction gives.
  fun_induction feed fs w generalizing w' with
  | case1 w => exact ⟨[], [], by simp, .nil w'⟩
  | case2 fs w hstack ih => exact absurd List.mem_cons_self hstray
  | case3 w b stack hstack =>
    obtain ⟨b', stack', hstack', hindent, hb, -, -⟩ := hw.exists_block hblank hstack
    refine ⟨_, _, ?_, (Echo.nil _).endBlock hstack' hb (by simp)⟩
    rw [hindent]
    rfl
  | case4 w b stack hstack f rest hchain ih =>
    obtain ⟨b', stack', hstack', hindent, hb, -, halike⟩ := hw.exists_block hblank hstack
    obtain ⟨gs, ls, hlines, hecho⟩ := ih _ hfs.tail.tail (halike ..)
      (hblank.continueBlock hstack _ _) fun h => hstray (List.mem_append_right _ h)
    refine ⟨_, _, ?_, hecho.continueBlock hfs.tail hchain hstack' hb⟩
    rw [Logged.value_bind, hlines, Header.value_line, hindent]
    simp [Walk.continueBlock, Walk.write]
  | case5 w b stack hstack f rest hchain ih =>
    obtain ⟨b', stack', hstack', hindent, hb, halike, -⟩ := hw.exists_block hblank hstack
    obtain ⟨gs, ls, hlines, hecho⟩ := ih hfs.tail halike (hblank.endBlock hstack) hstray
    refine ⟨_, _, ?_, hecho.endBlock hstack' hb
      (hecho.head?_isChain hfs.tail (eq_false_of_ne_true hchain))⟩
    rw [hlines, hindent]
    simp [Walk.endBlock, Walk.write]
  | case6 f fs w hf ih =>
    obtain ⟨l, hl, w'', halike, hstep⟩ := exists_echo_place hf hfs hw hblank
    obtain ⟨gs, ls, hlines, hecho⟩ := ih _ hfs.tail halike (hblank.place _)
      fun h => hstray (List.mem_append_right _ h)
    obtain ⟨g, hecho⟩ := hstep gs ls hecho
    refine ⟨g :: gs, l :: ls, ?_, hecho⟩
    rw [Logged.value_bind, hlines, hl]
    simp

end Walk

/-! ## The law -/

namespace Node

open Fragment Walk

/-- Formatting a text succeeds with the lines of one walk. -/
theorem value_formatDocument_ofText (o : Options) (s : Text) :
    ((ofText s).formatDocument o none).run.value =
      .ok (joinLines (feed (segment s) (start o.baseIndent)).value.lines) := by
  rw [← value_finish]
  rfl

/-- What that walk notes is noted by the formatting. -/
theorem mem_events_formatDocument_ofText {e : Event} (o : Options) (s : Text)
    (h : e ∈ (feed (segment s) (start o.baseIndent)).events) :
    e ∈ ((ofText s).formatDocument o none).run.events := by
  have hwalk : e ∈ (walk o.maxDepth [.text (some s)] (start o.baseIndent) 0).run.events := by
    refine Logged.mem_events_bind ?_ _
    rwa [Logged.events_liftM]
  show e ∈ (Except.mapError _ <$> _ : Logged _).events
  rw [Logged.events_map]
  exact Logged.mem_events_bind hwalk _

/-- The line feed before the first line cuts no fragment. -/
theorem segment_joinLines (ls : List Text) : segment (joinLines ls) = segment (fed ls) := by
  cases ls with
  | nil => rfl
  | cons l ls =>
    have hfed : fed (l :: ls) = [.char '\n'] ++ joinLines (l :: ls) := by
      rw [joinLines_cons]
      rfl
    rw [hfed, segment_blank_append (by decide)]

/-- **Formatting is idempotent.** If no closer is dropped while a text is formatted, what it is
formatted to is formatted to itself. -/
theorem formatDocument_ofText_idempotent (o : Options) (source : Text)
    (h : .strayCloser ∉ ((ofText source).formatDocument o none).run.events) :
    ∃ once, ((ofText source).formatDocument o none).run.value = .ok once ∧
      ((ofText once).formatDocument o none).run.value = .ok once := by
  have halike : Alike (start o.baseIndent) (start o.baseIndent) := ⟨rfl, rfl⟩
  obtain ⟨gs, ls, hlines, hecho⟩ := exists_echo (settled_segment source) halike
    (blankIndents_start o.allBlank_baseIndent)
    fun hmem => h (mem_events_formatDocument_ofText o source hmem)
  -- The lines are cut into the fragments that echo those of the source.
  refine ⟨joinLines ls, ?_, ?_⟩
  · rw [value_formatDocument_ofText, hlines]
    rfl
  · have hcut : segment (joinLines ls) = gs := by
      rw [segment_joinLines,
        segment_of_spelled (hecho.respelled.settled (settled_segment source)) hecho.spelled]
    rw [value_formatDocument_ofText, hcut, hecho.lines]
    rfl

/-- Headers are respaced, a chain continuation joins its closer, and a block is left open. -/
theorem formatDocument_ofText_idempotent_chain :
    .strayCloser ∉ ((ofText "@if(a)\x7b \x7b\x7bb\x7d\x7d\x7d\n@else\x7b c".toText).formatDocument
        .default none).run.events ∧
      ∃ once,
        ((ofText "@if(a)\x7b \x7b\x7bb\x7d\x7d\x7d\n@else\x7b c".toText).formatDocument
          .default none).run.value = .ok once ∧
        ((ofText once).formatDocument .default none).run.value = .ok once := by
  have h : .strayCloser ∉ ((ofText
      "@if(a)\x7b \x7b\x7bb\x7d\x7d\x7d\n@else\x7b c".toText).formatDocument
      .default none).run.events := by
    decide +kernel
  exact ⟨h, formatDocument_ofText_idempotent _ _ h⟩

end Node

end TemplateLayout
