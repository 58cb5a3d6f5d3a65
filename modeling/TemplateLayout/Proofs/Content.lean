import TemplateLayout.Document
import TemplateLayout.Proofs.Walks

/-! # Formatting keeps the content
Nothing is lost, made up or moved when a tree is formatted. Without its blanks the result is the
skeleton of the tree: the tags, attributes, comments and texts of its nodes in document order, less
the closers that met no open block.

* `Token.kept` — the text of tokens without the closers that are dropped;
* `Node.skeleton` — a tree in document order;
* `Walk.shown` — what the lines of a walk show;
* `Walk.shown_feed` — a walk shows the text that it is fed;
* `Node.visible_formatDocument` — a formatted document shows its skeleton.
-/

namespace TemplateLayout

open Text Piece Directive

variable {f : Fragment} {fs gs : List Fragment} {ts us : List Token} {w w' : Walk}
  {stack : BlockStack} {indent : Text}

/-! ## Skeletons -/

/-- The blocks that are open after some fragments. -/
def BlockStack.after (stack : BlockStack) (fs : List Fragment) : BlockStack :=
  (Walk.feed fs ⟨[], stack, []⟩).value.stack

namespace Token

/-- A token as it was written. -/
def source : Token → Text
  | .plain p => p.source
  | .header ps => sourceAll ps
  | .close => [.char '}']

/-- **The text of tokens** that follow the tokens `passed`, without the closers that meet no open
block. -/
def kept (stack : BlockStack) : List Token → List Token → Text
  | _, [] => []
  | passed, t :: ts =>
    (if t = .close ∧ (stack.after (Fragment.ofTokens passed)).isEmpty then [] else t.source) ++
      kept stack (passed ++ [t]) ts

end Token

/-- A text without the closers that meet no open block, where the blocks of `stack` are open at its
start. -/
def Text.kept (stack : BlockStack) (s : Text) : Text :=
  Token.kept stack [] (Token.ofPieces (lex s))

namespace Node

mutual

/-- The **skeleton** of a node: its tags, attributes, comments and texts in document order. -/
def skeleton : Node → Text
  | .element name attrs children =>
    if name.isEmpty then []
    else
      .char '<' :: name ++ attrs.flatMap Attribute.write ++ [.char '>'] ++
        skeletonAll children [] ++
        if isVoid name && !hasContent children then [] else Tag.closing name
  | .text value => Text.kept [] (value.getD [])
  | .comment value => "<!--".toText ++ value ++ "-->".toText
  | .document doctype children => doctype.getD [] ++ skeletonAll children []
  | .foreign _ => []

/-- The skeleton of a sequence of nodes, where the blocks of `stack` are open at its start. -/
def skeletonAll : List Node → BlockStack → Text
  | [], _ => []
  | n :: ns, stack =>
    match n.text? with
    | some value => Text.kept stack value ++ skeletonAll ns (stack.after (Fragment.segment value))
    | none => n.skeleton ++ skeletonAll ns stack

end

end Node

/-! ## Tokens and fragments -/

namespace Token

/-- Tokens write the pieces that they are made of. -/
theorem flatMap_source_ofPieces (ps : List Piece) :
    (ofPieces ps).flatMap source = sourceAll ps := by
  fun_induction ofPieces ps with
  | case1 => rfl
  | case2 p rest body after h ih =>
    rw [List.flatMap_cons, ih, ← append_of_takeBrace (takeHeader_eq_some_iff.1 h).2,
      sourceAll_append]
    rfl
  | case3 p rest h ih =>
    rw [List.flatMap_cons, ih, sourceAll_cons]
    split
    · next hp => rw [hp]; rfl
    · rfl

theorem kept_append (stack : BlockStack) (passed ts us : List Token) :
    kept stack passed (ts ++ us) = kept stack passed ts ++ kept stack (passed ++ ts) us := by
  induction ts generalizing passed with
  | nil => simp [kept]
  | cons t ts ih => rw [List.cons_append, kept, kept, ih]; simp

/-- Where there is no closer nothing is dropped. -/
theorem kept_of_notMem (h : .close ∉ ts) (stack : BlockStack) (passed : List Token) :
    kept stack passed ts = ts.flatMap source := by
  induction ts generalizing passed with
  | nil => rfl
  | cons t ts ih =>
    have ht : t ≠ .close := fun ht => h (ht ▸ List.mem_cons_self)
    rw [kept, if_neg fun hc => ht hc.1, ih fun hmem => h (List.mem_cons_of_mem _ hmem),
      List.flatMap_cons]

/-- What is kept of tokens is part of what they write, in order. -/
theorem kept_sublist (stack : BlockStack) (passed ts : List Token) :
    (kept stack passed ts).Sublist (ts.flatMap source) := by
  induction ts generalizing passed with
  | nil => exact .slnil
  | cons t ts ih =>
    rw [kept, List.flatMap_cons]
    refine List.Sublist.append ?_ (ih _)
    split
    · exact List.nil_sublist _
    · exact List.Sublist.refl _

/-- Tokens with a closer have a last one. -/
theorem exists_last_close (h : .close ∈ ts) : ∃ us vs, ts = us ++ .close :: vs ∧ .close ∉ vs := by
  induction ts with
  | nil => simp at h
  | cons t ts ih =>
    by_cases hts : .close ∈ ts
    · obtain ⟨us, vs, rfl, hvs⟩ := ih hts
      exact ⟨t :: us, vs, rfl, hvs⟩
    · obtain rfl : .close = t := (List.mem_cons.1 h).resolve_right hts
      exact ⟨[], ts, rfl, hts⟩

end Token

namespace Fragment

theorem visible_consPlain (r : Text) (fs : List Fragment) :
    visible ((consPlain r fs).flatMap value) = visible r ++ visible (fs.flatMap value) := by
  rw [consPlain]
  split
  · next h =>
    have hr : visible r = [] := by rw [← visible_trim, List.isEmpty_iff.1 h, visible_nil]
    rw [hr, List.nil_append]
  · rw [List.flatMap_cons, visible_append, value, visible_trim]

/-- **The fragments of tokens show what the tokens do.** -/
theorem visible_ofTokens (ts : List Token) :
    visible ((ofTokens ts).flatMap value) = visible (ts.flatMap Token.source) := by
  -- The run that touches the start shows as a fragment or not, but what it shows is the same.
  suffices hsplit : visible (splitRun ts).1 ++ visible ((splitRun ts).2.flatMap value) =
      visible (ts.flatMap Token.source) from (visible_consPlain ..).trans hsplit
  induction ts with
  | nil => rfl
  | cons t ts ih =>
    have hrest : visible ((ofTokens ts).flatMap value) = visible (ts.flatMap Token.source) :=
      (visible_consPlain ..).trans ih
    rw [List.flatMap_cons, visible_append]
    cases t with
    | plain p =>
      have hp : visible p.normal = visible p.source := by simpa using visible_normalAll [p]
      rw [splitRun_plain, visible_append, hp, List.append_assoc, ih]
      rfl
    | header ps =>
      rw [splitRun_header, List.flatMap_cons, visible_append, hrest, value, visible_normalAll]
      rfl
    | close =>
      rw [splitRun_close, List.flatMap_cons, visible_append, hrest]
      rfl

theorem mem_consPlain {r : Text} (h : f ∈ consPlain r fs) : f = .plain (trim r) ∨ f ∈ fs := by
  unfold consPlain at h
  split at h
  · exact .inr h
  · exact List.mem_cons.1 h

/-- A closer among fragments was one among the tokens. -/
theorem close_mem_of_ofTokens (h : .close ∈ ofTokens ts) : .close ∈ ts := by
  suffices hsplit : .close ∈ (splitRun ts).2 → .close ∈ ts from
    (mem_consPlain h).elim Fragment.noConfusion hsplit
  clear h
  induction ts with
  | nil => exact fun h => absurd h List.not_mem_nil
  | cons t ts ih =>
    intro h
    cases t with
    | plain p => exact List.mem_cons_of_mem _ (ih h)
    | header ps =>
      rw [splitRun_header] at h
      have hmem := (List.mem_cons.1 h).resolve_left Fragment.noConfusion
      exact List.mem_cons_of_mem _ ((mem_consPlain hmem).elim Fragment.noConfusion ih)
    | close => exact List.mem_cons_self

end Fragment

/-! ## What a walk shows -/

namespace Walk

open Fragment

variable {b : Block}

/-- How many blocks are open after a fragment is placed. -/
theorem length_stack_place (w : Walk) (v : Text) :
    (w.place v).value.stack.length = w.stack.length + if isOpener v then 1 else 0 := by
  rw [place]
  split
  · rfl
  · rw [Logged.value_map, stack_emit]
    rfl

/-- Where as many blocks are open one can be ended. -/
theorem exists_block_of_length (h : w.stack.length = w'.stack.length) (hw : w.stack = b :: stack) :
    ∃ b' stack', w'.stack = b' :: stack' ∧ stack.length = stack'.length := by
  rw [hw] at h
  obtain ⟨b', stack', hw'⟩ := List.exists_cons_of_length_eq_add_one h.symm
  rw [hw'] at h
  exact ⟨b', stack', hw', Nat.succ.inj h⟩

/-- **How many blocks are open** after some fragments depends on how many were open before. -/
theorem length_stack_feed (fs : List Fragment) (h : w.stack.length = w'.stack.length) :
    (feed fs w).value.stack.length = (feed fs w').value.stack.length := by
  fun_induction feed fs w generalizing w' with
  | case1 w => rw [feed_nil]; exact h
  | case2 fs w hw ih =>
    have hw' : w'.stack = [] := by
      rw [hw] at h
      exact List.length_eq_zero_iff.1 h.symm
    rw [feed_close_stray hw', Logged.value_bind, Logged.value_bind, ih h]
  | case3 w b stack hw =>
    obtain ⟨b', stack', hw', hlen⟩ := exists_block_of_length h hw
    rw [feed_close_end hw' (by simp), feed_nil]
    exact hlen
  | case4 w b stack hw f rest hchain ih =>
    obtain ⟨b', stack', hw', hlen⟩ := exists_block_of_length h hw
    rw [feed_close_chain hw' hchain, Logged.value_bind, Logged.value_bind]
    exact ih _ (congrArg (· + 1) hlen)
  | case5 w b stack hw f rest hchain ih =>
    obtain ⟨b', stack', hw', hlen⟩ := exists_block_of_length h hw
    rw [feed_close_end hw' (by simpa using hchain)]
    exact ih hlen
  | case6 f fs w hf ih =>
    rw [feed_of_ne hf, Logged.value_bind, Logged.value_bind]
    refine ih _ ?_
    rw [length_stack_place, length_stack_place, h]

/-- A closer divides the fragments that a walk is fed. -/
theorem feed_append_close (fs gs : List Fragment) (w : Walk) :
    (feed (fs ++ .close :: gs) w).value = (feed (.close :: gs) (feed fs w).value).value := by
  fun_induction feed fs w with
  | case1 w => rfl
  | case2 fs w hw ih =>
    rw [List.cons_append, feed_close_stray hw, Logged.value_bind, Logged.value_bind]
    exact ih
  | case3 w b stack hw =>
    rw [List.cons_append, List.nil_append, feed_close_end hw (by simp [isChain_close])]
    rfl
  | case4 w b stack hw f rest hchain ih =>
    rw [List.cons_append, List.cons_append, feed_close_chain hw hchain, Logged.value_bind]
    exact ih _
  | case5 w b stack hw f rest hchain ih =>
    rw [List.cons_append, feed_close_end hw (by simpa using hchain)]
    exact ih
  | case6 f fs w hf ih =>
    rw [List.cons_append, feed_of_ne hf, Logged.value_bind]
    exact ih _

/-- What the lines of a walk **show**. -/
def shown (w : Walk) : Text := visible w.lines.flatten

theorem shown_write (w : Walk) (line : Text) : (w.write line).shown = w.shown ++ visible line := by
  simp [shown]

/-- A line that is not written shows nothing. -/
theorem shown_emit (w : Walk) (line : Text) : (w.emit line).shown = w.shown ++ visible line := by
  unfold emit
  split
  · next h => rw [visible_of_allBlank h, List.append_nil]
  · exact shown_write w line

/-- What a fragment says shows what the fragment does. -/
theorem visible_spoken (h : Settled (f :: fs))
    (hkey : isOpener f.value = true ∨ isChain f.value = true) :
    visible (Header.spoken f.value) = visible f.value := by
  cases f with
  | plain v =>
    rw [value, Header.spoken_of_read_none (Header.read_eq_none_of_isPlain h.1 hkey), visible_trim]
  | header v =>
    obtain ⟨hd, hread, -, hvisible, -⟩ := Header.exists_read h.1.1 h.1.2
    rw [value, Header.spoken_of_read hread, hvisible]
  | close => exact absurd hkey (by decide +kernel)

/-- Placing a fragment shows it. -/
theorem shown_place (h : Settled (f :: fs)) (hw : w.BlankIndents) :
    (w.place f.value).value.shown = w.shown ++ visible f.value := by
  rw [value_place h]
  split
  · next hopener =>
    have hwrite : (w.openBlock f.value (w.indent ++ Header.spoken f.value)).shown =
        (w.write (w.indent ++ Header.spoken f.value)).shown := rfl
    rw [hwrite, shown_write, visible_append, visible_of_allBlank hw.indent, List.nil_append,
      visible_spoken h (.inl hopener)]
  · rw [shown_write, visible_append, visible_of_allBlank hw.indent, List.nil_append]

/-- Fragments without a closer are all shown. -/
theorem shown_feed_of_notMem (hfs : Settled fs) (hclose : .close ∉ fs) (hw : w.BlankIndents) :
    (feed fs w).value.shown = w.shown ++ visible (fs.flatMap value) := by
  induction fs generalizing w with
  | nil => rw [feed_nil]; simp
  | cons f fs ih =>
    have hf : f ≠ .close := fun hf => hclose (hf ▸ List.mem_cons_self)
    rw [feed_of_ne hf, Logged.value_bind,
      ih hfs.tail (fun hmem => hclose (List.mem_cons_of_mem _ hmem)) (hw.place _),
      shown_place hfs hw, List.flatMap_cons, visible_append, List.append_assoc]

/-- A closer is shown unless it meets no open block. -/
theorem shown_feed_close (hfs : Settled fs) (hclose : .close ∉ fs) (hw : w.BlankIndents) :
    (feed (.close :: fs) w).value.shown =
      w.shown ++ ((if w.stack.isEmpty then [] else [.char '}']) ++ visible (fs.flatMap value)) := by
  cases hstack : w.stack with
  | nil =>
    rw [feed_close_stray hstack, Logged.value_bind, shown_feed_of_notMem hfs hclose hw]
    rfl
  | cons b stack =>
    -- The closer is written by itself, or on one line with the fragment that it takes along.
    have hb := visible_of_allBlank (hw.blocks b (hstack ▸ List.mem_cons_self))
    have hend : (w.endBlock b stack).shown = w.shown ++ [.char '}'] := by
      have hwrite : (w.endBlock b stack).shown = (w.write (b.indent ++ [.char '}'])).shown := rfl
      rw [hwrite, shown_write, visible_append, hb]
      rfl
    by_cases hchain : ∃ f rest, fs = f :: rest ∧ isChain f.value = true
    · obtain ⟨f, rest, rfl, hf⟩ := hchain
      rw [feed_close_chain hstack hf, Logged.value_bind, Header.value_line, List.nil_append,
        shown_feed_of_notMem hfs.tail (fun hmem => hclose (List.mem_cons_of_mem _ hmem))
          (hw.continueBlock hstack _ _)]
      have hcont : (w.continueBlock b stack f.value (Header.spoken f.value)).shown =
          (w.write (b.indent ++ [.char '}', .char ' '] ++ Header.spoken f.value)).shown := rfl
      have hbrace : visible [.char '}', .char ' '] = [.char '}'] := by decide
      rw [hcont, shown_write, visible_append, visible_append, hb, hbrace,
        visible_spoken hfs (.inr hf), List.flatMap_cons, visible_append]
      simp
    · rw [feed_close_end hstack, shown_feed_of_notMem hfs hclose (hw.endBlock hstack), hend]
      · simp
      · intro f hf
        obtain ⟨rest, rfl⟩ := List.head?_eq_some_iff.1 hf
        exact eq_false_of_ne_true fun h => hchain ⟨f, rest, rfl, h⟩

/-- **A walk shows what it is fed**: the text of the tokens, less the closers that are dropped. -/
theorem shown_feed (hts : Settled (ofTokens ts)) (hw : w.BlankIndents)
    (hlen : w.stack.length = stack.length) :
    (feed (ofTokens ts) w).value.shown = w.shown ++ visible (Token.kept stack [] ts) := by
  generalize hn : ts.length = n
  induction n using Nat.strongRecOn generalizing ts with
  | ind n ih =>
    by_cases hclose : .close ∈ ts
    · -- Up to the last closer the induction applies, and behind it none is left.
      obtain ⟨us, vs, rfl, hvs⟩ := Token.exists_last_close hclose
      rw [ofTokens_append_close] at hts ⊢
      have hempty : (feed (ofTokens us) w).value.stack.isEmpty =
          (stack.after (ofTokens us)).isEmpty := by
        have hstack : w.stack.length = (Walk.mk [] stack []).stack.length := hlen
        rw [Bool.eq_iff_iff, List.isEmpty_iff_length_eq_zero, List.isEmpty_iff_length_eq_zero,
          length_stack_feed (ofTokens us) hstack]
        rfl
      have hdrop : visible (if Token.close = .close ∧ (stack.after (ofTokens us)).isEmpty = true
          then [] else Token.source .close) =
          if (stack.after (ofTokens us)).isEmpty then [] else [.char '}'] := by
        cases (stack.after (ofTokens us)).isEmpty <;> decide
      have hvs' : .close ∉ ofTokens vs := fun h => hvs (close_mem_of_ofTokens h)
      have hlt : us.length < n := by
        rw [← hn, List.length_append, List.length_cons]
        omega
      rw [feed_append_close, shown_feed_close hts.right.tail hvs' (hw.feed _),
        ih us.length hlt hts.left rfl, hempty, visible_ofTokens, Token.kept_append,
        Token.kept, Token.kept_of_notMem hvs, visible_append, visible_append,
        List.nil_append, hdrop, List.append_assoc]
    · rw [shown_feed_of_notMem hts (fun h => hclose (close_mem_of_ofTokens h)) hw, visible_ofTokens,
        Token.kept_of_notMem hclose]

end Walk

/-! ## What a tree shows -/

/-- Line feeds between lines do not show. -/
theorem Text.visible_joinLines (ls : List Text) : visible (joinLines ls) = visible ls.flatten := by
  induction ls with
  | nil => rfl
  | cons l ls ih =>
    cases ls with
    | nil => simp
    | cons m ls =>
      rw [joinLines_cons_cons, visible_append, visible_cons_blank isBlank_lineFeed, ih,
        ← visible_append]
      rfl

namespace Tag

/-- What divides attributes does not show. -/
theorem visible_attributes (attrs : List Attribute) (hindent : allBlank indent = true) :
    visible (attributes attrs indent) = visible (attrs.flatMap Attribute.write) := by
  have hlines (as : List Attribute) :
      visible (as.map fun a => indent ++ a.write).flatten =
        visible (as.flatMap Attribute.write) := by
    induction as with
    | nil => rfl
    | cons a as ih =>
      rw [List.map_cons, List.flatten_cons, visible_append, visible_append, ih,
        visible_of_allBlank hindent, List.flatMap_cons, visible_append]
      rfl
  match attrs with
  | [] => rfl
  | [a] =>
    rw [attributes, visible_cons_blank isBlank_space]
    simp
  | a :: a' :: as =>
    rw [attributes, visible_cons_blank isBlank_lineFeed, Attribute.writeAll, visible_joinLines,
      hlines]
    · simp
    · simp
    · simp

/-- The opening tag without its blanks. -/
theorem visible_opening (name : Text) (attrs : List Attribute) (content : Bool)
    (hindent : allBlank indent = true) :
    visible (opening name attrs content indent) =
      visible (.char '<' :: name ++ attrs.flatMap Attribute.write ++ [.char '>']) := by
  have hdeeper : allBlank (indent ++
      if content then indentUnit ++ indentUnit else indentUnit) = true := by
    rw [allBlank_append, hindent]
    cases content <;> decide
  rw [opening, visible_append, visible_append, visible_append, visible_attributes attrs hdeeper,
    visible_of_allBlank hindent, visible_append, visible_append]
  rfl

/-- An element without content shows its tags; a void one shows its opening tag. -/
theorem visible_empty (name : Text) (attrs : List Attribute) (hindent : allBlank indent = true) :
    visible (Tag.empty name attrs indent) =
      visible (.char '<' :: name ++ attrs.flatMap Attribute.write ++ [.char '>'] ++
        if Node.isVoid name then [] else closing name) := by
  rw [visible_append, ← visible_opening name attrs false hindent, Tag.empty]
  split
  · simp
  · split
    · exact visible_append ..
    · rw [visible_append, visible_append, visible_cons_blank isBlank_lineFeed,
        visible_of_allBlank hindent, List.append_nil]

/-- An element shows its tags around the lines of its content. -/
theorem visible_around (name : Text) (attrs : List Attribute) (lines : List Text)
    (hindent : allBlank indent = true) :
    visible (around name attrs indent lines) =
      visible (.char '<' :: name ++ attrs.flatMap Attribute.write ++ [.char '>'] ++ lines.flatten ++
        closing name) := by
  rw [around, visible_append, visible_append, visible_append, visible_cons_blank isBlank_lineFeed,
    visible_cons_blank isBlank_lineFeed, visible_joinLines, visible_of_allBlank hindent,
    List.append_nil, visible_opening name attrs true hindent, ← visible_append, ← visible_append]

end Tag

namespace Node

open Walk

variable {n : Node}

theorem skeletonAll_of_text {value : Text} (h : n.text? = some value) (ns : List Node)
    (stack : BlockStack) :
    skeletonAll (n :: ns) stack =
      Text.kept stack value ++ skeletonAll ns (stack.after (Fragment.segment value)) := by
  rw [skeletonAll, h]

theorem skeletonAll_of_none (h : n.text? = none) (ns : List Node) (stack : BlockStack) :
    skeletonAll (n :: ns) stack = n.skeleton ++ skeletonAll ns stack := by
  rw [skeletonAll, h]

/-- Blank text shows nothing. -/
theorem visible_kept_of_allBlank {s : Text} (hs : allBlank s = true) (stack : BlockStack) :
    visible (Text.kept stack s) = [] := by
  have hsub := Token.kept_sublist stack [] (Token.ofPieces (lex s))
  rw [Token.flatMap_source_ofPieces, sourceAll_lex] at hsub
  refine visible_of_allBlank (List.all_eq_true.2 fun c hc => ?_)
  exact List.all_eq_true.1 hs c (hsub.subset hc)

/-- Children without content show nothing. -/
theorem visible_skeletonAll_of_not_hasContent {children : List Node}
    (h : hasContent children = false) (stack : BlockStack) :
    visible (skeletonAll children stack) = [] := by
  induction children generalizing stack with
  | nil => rfl
  | cons n ns ih =>
    rw [hasContent, List.any_cons, Bool.or_eq_false_iff] at h
    obtain ⟨hn, hns⟩ := h
    rw [isContent] at hn
    split at hn
    · next value hvalue =>
      rw [skeletonAll_of_text hvalue, visible_append, ih hns, List.append_nil]
      exact visible_kept_of_allBlank (by simpa using hn) stack
    · exact absurd hn.symm Bool.false_ne_true

/-- The lines of a finished walk show what the walk does. -/
theorem visible_of_finish {w : Walk} {lines : List Text}
    (h : (liftM w.finish : Rendering (List Text)).run.value = .ok lines) :
    visible lines.flatten = w.shown := by
  have hlines : w.finish.value = lines := Except.ok.inj h
  rw [← hlines, value_finish, shown]

mutual

/-- **A rendered node shows its skeleton.** -/
theorem visible_render {limit depth : Nat} {indent out : Text} (n : Node) (hn : n.text? = none)
    (hindent : allBlank indent = true)
    (h : (render limit n indent depth).run.value = .ok out) : visible out = visible n.skeleton := by
  match n with
  | .element name attrs children =>
    rw [render] at h
    split at h
    · exact absurd h (Logged.value_throw_ne_ok _ _)
    · rw [skeleton]
      split at h
      · next hname =>
        rw [if_pos hname, ← Except.ok.inj h]
      · next hname =>
        rw [if_neg hname]
        split at h
        · next hcontent =>
          obtain ⟨w, hwalk, h⟩ := Logged.value_bind_eq_ok_iff.1 h
          obtain ⟨lines, hlines, h⟩ := Logged.value_bind_eq_ok_iff.1 h
          have hdeeper : allBlank (indent ++ indentUnit) = true := by
            rw [allBlank_append, hindent]
            decide
          have hshown : visible lines.flatten = visible (skeletonAll children []) := by
            rw [visible_of_finish hlines]
            exact shown_walk children (blankIndents_start hdeeper) rfl hwalk
          have hclosing : (isVoid name && !hasContent children) = false := by simp [hcontent]
          rw [← Except.ok.inj h, Tag.visible_around name attrs lines hindent, hclosing]
          simp only [visible_append, hshown, Bool.false_eq_true, if_false]
        · next hcontent =>
          -- The children are left out, but all of them are blank.
          have hnone := visible_skeletonAll_of_not_hasContent (eq_false_of_ne_true hcontent) []
          have hclosing : (isVoid name && !hasContent children) = isVoid name := by simp [hcontent]
          rw [← Except.ok.inj h, Tag.visible_empty name attrs hindent, hclosing]
          simp only [visible_append, hnone, List.append_nil]
  | .text value => exact absurd hn (by simp [text?])
  | .comment value =>
    rw [render] at h
    rw [← Except.ok.inj h, skeleton]
    simp [visible_of_allBlank hindent]
  | .document doctype children =>
    rw [render] at h
    obtain ⟨w, hwalk, h⟩ := Logged.value_bind_eq_ok_iff.1 h
    obtain ⟨lines, hlines, h⟩ := Logged.value_bind_eq_ok_iff.1 h
    obtain ⟨_, -, h⟩ := Logged.value_bind_eq_ok_iff.1 h
    have hshown : visible (joinLines lines) = visible (skeletonAll children []) := by
      rw [visible_joinLines, visible_of_finish hlines]
      exact shown_walk children (blankIndents_start hindent) rfl hwalk
    rw [skeleton, visible_append, ← hshown]
    -- An empty declaration is none.
    match doctype with
    | none => rw [← Except.ok.inj h]; rfl
    | some [] => rw [← Except.ok.inj h]; rfl
    | some (c :: declaration) =>
      rw [← Except.ok.inj h, visible_append, visible_cons_blank isBlank_lineFeed]
      rfl
  | .foreign kind =>
    rw [render] at h
    exact absurd h (Logged.value_throw_ne_ok _ _)

/-- **A sequence of nodes shows its skeleton**, behind what was shown before. -/
theorem shown_walk {limit depth : Nat} {w w' : Walk} {stack : BlockStack} (ns : List Node)
    (hw : w.BlankIndents) (hlen : w.stack.length = stack.length)
    (h : (walk limit ns w depth).run.value = .ok w') :
    w'.shown = w.shown ++ visible (skeletonAll ns stack) := by
  match ns with
  | [] =>
    rw [walk] at h
    rw [← Except.ok.inj h, skeletonAll, visible_nil, List.append_nil]
  | n :: ns =>
    rw [walk] at h
    split at h
    · next value hvalue =>
      obtain ⟨w₁, hstep, h⟩ := Logged.value_bind_eq_ok_iff.1 h
      obtain rfl : (feed (Fragment.segment value) w).value = w₁ := Except.ok.inj hstep
      -- The skeleton goes on with a stack that has other indents but the same height.
      have hlen' : (feed (Fragment.segment value) w).value.stack.length =
          (stack.after (Fragment.segment value)).length :=
        length_stack_feed (Fragment.segment value) (hlen : _ = (Walk.mk [] stack []).stack.length)
      have hfed : (feed (Fragment.segment value) w).value.shown =
          w.shown ++ visible (Text.kept stack value) :=
        shown_feed (Fragment.settled_segment value) hw hlen
      rw [shown_walk ns (hw.feed _) hlen' h, hfed, skeletonAll_of_text hvalue, visible_append,
        List.append_assoc]
    · next hnone =>
      obtain ⟨w₁, hstep, h⟩ := Logged.value_bind_eq_ok_iff.1 h
      rw [map_eq_pure_bind] at hstep
      obtain ⟨line, hline, hstep⟩ := Logged.value_bind_eq_ok_iff.1 hstep
      have hemit : w.emit line = w₁ := Except.ok.inj hstep
      rw [← hemit] at h
      have hlen' : (w.emit line).stack.length = stack.length := by rw [stack_emit, hlen]
      rw [shown_walk ns (hw.emit line) hlen' h, shown_emit, skeletonAll_of_none hnone,
        visible_render n hnone hw.indent hline, visible_append, List.append_assoc]

end

/-- **Nothing is lost, made up or moved.** Whatever the tree, a formatted document shows the
skeleton of the tree and nothing else. -/
theorem visible_formatDocument (o : Options) (n : Node) (indent : Option Text) {out : Text}
    (hindent : ∀ i, indent = some i → allBlank i = true)
    (h : (n.formatDocument o indent).run.value = .ok out) :
    visible out = visible n.skeleton := by
  have hblank : allBlank (indent.getD o.baseIndent) = true := by
    cases indent with
    | none => exact o.allBlank_baseIndent
    | some i => exact hindent i rfl
  unfold formatDocument at h
  split at h
  · next doctype children =>
    exact visible_render (.document doctype children) rfl hblank (Logged.value_adapt_eq_ok_iff.1 h)
  · exact absurd h (Logged.value_throw_ne_ok _ _)

/-- A paragraph with a closer that is dropped, and a void element in a block that is left open. -/
theorem visible_formatDocument_stray :
    visible "<p>\n  a\n  @if (b) \x7b\n    <br>\n</p>".toText =
      visible (skeleton (.document none [.element "p".toText []
        [.text (some "a \x7d @if(b)\x7b".toText), .element "br".toText [] []]])) := by
  have hok {x : Except FormatError Text} {a : Text} (hx : x.toOption = some a) : x = .ok a := by
    cases x with
    | ok b => exact congrArg Except.ok (Option.some.inj hx)
    | error e => exact absurd hx (by simp [Except.toOption])
  exact visible_formatDocument .default _ none (by simp) (hok (by decide +kernel))

end Node

end TemplateLayout
