import TemplateLayout.Proofs.Walks

/-! # Cutting text into nodes
How a text is cut into text nodes matters for chains only. A closer looks at the fragment behind it
in the same node, and at nothing else; everything else that a fragment does depends on the open
blocks, which stay open from node to node.

* `Walk.TakesAlong` — a closer at the end of some fragments would take along what follows them;
* `Walk.feed_append` — fragments in two parts, where no closer does so;
* `Walk.prefix_lines_feed`, `Node.prefix_lines_walk` — lines that are written stay;
* `Node.renderSequence_cut` — one text node or two, with the exception exactly.
-/

namespace TemplateLayout

open Text Directive

variable {limit depth : Nat} {f : Fragment} {fs gs : List Fragment} {w : Walk} {b : Block}
  {stack : BlockStack}

namespace Walk

/-! ## Fragments in two parts -/

/-- The last of some fragments is a closer that ends a block and that would **take along** the first
of the fragments behind them, a chain continuation. -/
def TakesAlong (w : Walk) (fs gs : List Fragment) : Prop :=
  ∃ init f rest, fs = init ++ [.close] ∧ gs = f :: rest ∧ (feed init w).value.stack ≠ [] ∧
    isChain f.value = true

/-- Whether the last closer takes something along does not depend on the steps before it. -/
theorem TakesAlong.of_feed {w' : Walk} (h : w'.TakesAlong fs gs) (ds : List Fragment)
    (hfeed : ∀ init, init <+: fs → (feed (ds ++ init) w).value = (feed init w').value) :
    w.TakesAlong (ds ++ fs) gs := by
  obtain ⟨init, f, rest, rfl, hgs, hstack, hchain⟩ := h
  refine ⟨ds ++ init, f, rest, (List.append_assoc ..).symm, hgs, ?_, hchain⟩
  rwa [hfeed init (List.prefix_append ..)]

/-- **Fragments are fed part by part**, unless a closer between the parts takes something along. -/
theorem feed_append (h : ¬ w.TakesAlong fs gs) : feed (fs ++ gs) w = feed fs w >>= feed gs := by
  fun_induction feed fs w with
  | case1 w => rw [List.nil_append, pure_bind]
  | case2 fs w hw ih =>
    have hrest : ¬ w.TakesAlong fs gs := by
      intro htakes
      refine h (htakes.of_feed [.close] fun init _ => ?_)
      rw [List.singleton_append, feed_close_stray hw, Logged.value_bind]
    rw [List.cons_append, feed_close_stray hw, ih hrest, bind_assoc]
  | case3 w b stack hw =>
    -- The closer is the last fragment, so what follows must not be a chain continuation.
    have hgs : ∀ f, gs.head? = some f → isChain f.value = false := by
      intro f hf
      obtain ⟨rest, rfl⟩ := List.head?_eq_some_iff.1 hf
      refine eq_false_of_ne_true fun hchain => h ⟨[], f, rest, rfl, rfl, ?_, hchain⟩
      rw [feed_nil, Logged.value_pure, hw]
      exact List.cons_ne_nil _ _
    rw [List.singleton_append, feed_close_end hw hgs, pure_bind]
  | case4 w b stack hw f rest hchain ih =>
    have hrest : ¬ (w.continueBlock b stack f.value (Header.line f.value []).value).TakesAlong
        rest gs := by
      intro htakes
      refine h (htakes.of_feed [.close, f] fun init _ => ?_)
      rw [List.cons_append, List.singleton_append, feed_close_chain hw hchain, Logged.value_bind]
    rw [List.cons_append, List.cons_append, feed_close_chain hw hchain, bind_assoc]
    exact Logged.bind_congr_value (ih _ hrest)
  | case5 w b stack hw f rest hchain ih =>
    have hend {hs : List Fragment} (hhs : hs <+: f :: (rest ++ gs)) :
        ∀ g, hs.head? = some g → isChain g.value = false := by
      intro g hg
      obtain ⟨tail, rfl⟩ := List.head?_eq_some_iff.1 hg
      rw [(List.cons_prefix_cons.1 hhs).1]
      exact eq_false_of_ne_true hchain
    have hrest : ¬ (w.endBlock b stack).TakesAlong (f :: rest) gs := by
      intro htakes
      refine h (htakes.of_feed [.close] fun init hinit => ?_)
      rw [List.singleton_append,
        feed_close_end hw (hend (hinit.trans (List.prefix_append (f :: rest) gs)))]
    rw [List.cons_append, List.cons_append, feed_close_end hw (hend List.prefix_rfl),
      ← List.cons_append, ih hrest]
  | case6 f fs w hf ih =>
    have hrest : ¬ (w.place f.value).value.TakesAlong fs gs := by
      intro htakes
      refine h (htakes.of_feed [f] fun init _ => ?_)
      rw [List.singleton_append, feed_of_ne hf, Logged.value_bind]
    rw [List.cons_append, feed_of_ne hf, bind_assoc]
    exact Logged.bind_congr_value (ih _ hrest)

/-! ## Lines that are written -/

theorem prefix_lines_emit (w : Walk) (line : Text) : w.lines <+: (w.emit line).lines := by
  unfold emit
  split
  · exact List.prefix_rfl
  · exact List.prefix_append _ _

theorem prefix_lines_place (w : Walk) (v : Text) : w.lines <+: (w.place v).value.lines := by
  rw [place]
  split
  · exact List.prefix_append _ _
  · exact prefix_lines_emit w _

/-- **Lines that are written stay** while fragments are fed. -/
theorem prefix_lines_feed (fs : List Fragment) (w : Walk) :
    w.lines <+: (feed fs w).value.lines := by
  fun_induction feed fs w with
  | case1 w => exact List.prefix_rfl
  | case2 fs w hw ih => exact ih
  | case3 w b stack hw => exact List.prefix_append _ _
  | case4 w b stack hw f rest hchain ih => exact (List.prefix_append _ _).trans (ih _)
  | case5 w b stack hw f rest hchain ih => exact (List.prefix_append _ _).trans ih
  | case6 f fs w hf ih => exact (prefix_lines_place w f.value).trans (ih _)

/-- **Where a closer takes something along, the cut shows.** With the cut it has a line of its own,
and without the cut it shares its line with the continuation. -/
theorem TakesAlong.exists_lines (h : w.TakesAlong fs gs) :
    ∃ ls l l', l ≠ l' ∧ ls ++ [l] <+: (feed (fs ++ gs) w).value.lines ∧
      ls ++ [l'] <+: (feed gs (feed fs w).value).value.lines := by
  obtain ⟨init, f, rest, rfl, rfl, hstack, hchain⟩ := h
  obtain ⟨b, stack, hw⟩ := List.exists_cons_of_ne_nil hstack
  -- A closer is no continuation, so up to the last closer both go alike.
  have hsplit (hs : List Fragment) :
      feed (init ++ .close :: hs) w = feed init w >>= feed (.close :: hs) := by
    refine feed_append ?_
    rintro ⟨_, g, _, -, hg, -, hg'⟩
    rw [← (List.cons.inj hg).1, Fragment.isChain_close] at hg'
    exact Bool.false_ne_true hg'
  refine ⟨(feed init w).value.lines, b.indent ++ [.char '}', .char ' '] ++
    (Header.line f.value []).value, b.indent ++ [.char '}'], ?_, ?_, ?_⟩
  · intro h
    rw [List.append_assoc] at h
    exact absurd (List.append_cancel_left h) (by simp)
  · rw [List.append_assoc init, List.singleton_append, hsplit, Logged.value_bind,
      feed_close_chain hw hchain, Logged.value_bind]
    exact prefix_lines_feed rest ((feed init w).value.continueBlock b stack f.value _)
  · rw [hsplit, Logged.value_bind, feed_close_end hw (by simp), feed_nil, Logged.value_pure]
    exact prefix_lines_feed (f :: rest) ((feed init w).value.endBlock b stack)

end Walk

/-! ## One text node or two -/

namespace Node

open Walk

/-- **Lines that are written stay** while nodes are walked. -/
theorem prefix_lines_walk {w' : Walk} (ns : List Node)
    (h : (walk limit ns w depth).run.value = .ok w') : w.lines <+: w'.lines := by
  induction ns generalizing w with
  | nil =>
    rw [walk] at h
    exact Except.ok.inj h ▸ List.prefix_rfl
  | cons n ns ih =>
    cases hn : n.text? with
    | some value =>
      rw [walk_text hn, Logged.value_liftM_bind] at h
      exact (prefix_lines_feed _ w).trans (ih h)
    | none =>
      rw [walk_node hn] at h
      obtain ⟨line, -, h⟩ := Logged.value_bind_eq_ok_iff.1 h
      exact (prefix_lines_emit w line).trans (ih h)

/-- A text is **cut inside a chain**: the nodes before it are walked to a state in which the last
fragment of the first part is a closer that ends a block, and the first fragment of the second part
is a chain continuation. -/
def CutsChain (limit depth : Nat) (ns : List Node) (base : Text) (v v' : Option Text) : Prop :=
  ∃ w, (walk limit ns (.start base) depth).run.value = .ok w ∧
    w.TakesAlong (Fragment.segment (v.getD [])) (Fragment.segment (v'.getD []))

/-- **The cut into text nodes matters for chains only.** A text whose fragments are those of two
texts is laid out like the two in its place, with the same lines or the same failure, unless the cut
goes through a chain; and then the lines are never the same. -/
theorem renderSequence_cut (limit depth : Nat) (xs ys : List Node) (base : Text)
    {v v₁ v₂ : Option Text} (hcut : Fragment.segment (v.getD []) =
      Fragment.segment (v₁.getD []) ++ Fragment.segment (v₂.getD [])) :
    (¬ CutsChain limit depth xs base v₁ v₂ →
        renderSequence limit (xs ++ .text v :: ys) base depth =
          renderSequence limit (xs ++ .text v₁ :: .text v₂ :: ys) base depth) ∧
      (CutsChain limit depth xs base v₁ v₂ → ∀ lines,
        (renderSequence limit (xs ++ .text v :: ys) base depth).run.value = .ok lines →
        (renderSequence limit (xs ++ .text v₁ :: .text v₂ :: ys) base depth).run.value ≠
          .ok lines) := by
  have hone (w : Walk) : walk limit (.text v :: ys) w depth =
      liftM (w.feed (Fragment.segment (v₁.getD []) ++ Fragment.segment (v₂.getD []))) >>= fun w' =>
        walk limit ys w' depth := by
    rw [← hcut]
    exact walk_text rfl ys w
  have htwo (w : Walk) : walk limit (.text v₁ :: .text v₂ :: ys) w depth =
      liftM (w.feed (Fragment.segment (v₁.getD [])) >>= feed (Fragment.segment (v₂.getD []))) >>=
        fun w' => walk limit ys w' depth := by
    rw [liftM_bind, bind_assoc, walk_text rfl]
    exact bind_congr fun w' => walk_text rfl ys w'
  constructor
  · intro hchain
    have hwalk : walk limit (xs ++ .text v :: ys) (.start base) depth =
        walk limit (xs ++ .text v₁ :: .text v₂ :: ys) (.start base) depth := by
      rw [walk_append, walk_append]
      refine Logged.bind_congr_ok fun w hw => ?_
      rw [hone, htwo, feed_append fun htakes => hchain ⟨w, hw, htakes⟩]
    rw [renderSequence, renderSequence, hwalk]
  · rintro ⟨w, hw, htakes⟩ lines h h'
    obtain ⟨ls, l, l', hne, hl, hl'⟩ := htakes.exists_lines
    -- Both lists of lines go on from the state before the text, so they differ where it does.
    have hprefix : ls ++ [l] <+: lines := by
      obtain ⟨u, hu, h⟩ := Logged.value_bind_eq_ok_iff.1 h
      rw [walk_append, Logged.value_bind_of_ok hw, hone, Logged.value_liftM_bind] at hu
      rw [← lines_of_finish h]
      exact hl.trans (prefix_lines_walk ys hu)
    have hprefix' : ls ++ [l'] <+: lines := by
      obtain ⟨u, hu, h'⟩ := Logged.value_bind_eq_ok_iff.1 h'
      rw [walk_append, Logged.value_bind_of_ok hw, htwo, Logged.value_liftM_bind] at hu
      rw [← lines_of_finish h']
      exact hl'.trans (prefix_lines_walk ys hu)
    have heq : ls ++ [l] = ls ++ [l'] :=
      List.IsPrefix.eq_of_length (List.prefix_of_prefix_length_le hprefix hprefix' (by simp))
        (by simp)
    exact hne (List.singleton_inj.1 (List.append_cancel_left heq))

/-- Behind a closer that ends a block a text may be cut, but not before a continuation. -/
theorem renderSequence_cut_closer :
    renderSequence 1 [.text (some "@if(a)\x7b".toText), .text (some "b \x7d c".toText)] [] 0 =
        renderSequence 1 [.text (some "@if(a)\x7b".toText), .text (some "b \x7d".toText),
          .text (some " c".toText)] [] 0 ∧
      (renderSequence 1 [.text (some "@if(a)\x7b \x7d".toText), .text (some "@else\x7b".toText)]
        [] 0).run.value ≠ .ok ["@if (a) \x7b".toText, "\x7d @else \x7b".toText] := by
  constructor
  · refine (renderSequence_cut 1 0 [.text (some "@if(a)\x7b".toText)] [] [] ?_).1 ?_
    · decide +kernel
    · rintro ⟨w, -, init, f, rest, -, hf, -, hchain⟩
      have hsegment : Fragment.segment " c".toText = [.plain "c".toText] := by decide +kernel
      obtain ⟨rfl, -⟩ := List.cons.inj (hsegment.symm.trans hf)
      exact absurd hchain (by decide +kernel)
  · refine (renderSequence_cut 1 0 [] [] [] (v := some "@if(a)\x7b \x7d @else\x7b".toText)
      ?_).2 ⟨.start [], rfl, [.header "@if(a)\x7b".toText], .header "@else\x7b".toText, [], ?_⟩ _ ?_
    · decide +kernel
    · decide +kernel
    · exact Logged.eq_ok_of_toOption (by decide +kernel)

end Node

end TemplateLayout
