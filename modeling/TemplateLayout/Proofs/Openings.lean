import TemplateLayout.Proofs.Stages

/-! # What opens a block
A block is opened by the fragment that is placed as an opener, or that a closer takes along as a
continuation. If the fragment is a header, the line just written for it ends in a brace. The test
for openers and continuations looks at the keyword of a fragment and not at its kind, though, so
plain text may open a block too: a keyword before an unclosed `{{`, or a chain keyword without any
brace behind a closer. Such a text holds no header and is written as it stands.

* `Stage.opening?` — the fragment that opens a block in the next step;
* `Stage.Reaches.settled` — the fragments of a stage are settled;
* `Stage.line_of_opening` — what is written for the fragment that opens a block;
* `Stage.opening_without_brace` — two texts that open a block without a brace.
-/

namespace TemplateLayout

open Text Directive

/-! ## Header lines -/

namespace Header

variable {v : Text} {fs : List Fragment}

/-- A header as a line ends in its brace. -/
theorem brace_suffix_write (h : Header) : [.char ' ', .char '{'] <:+ h.write := by
  unfold write
  split
  · exact List.suffix_append _ _
  · exact List.suffix_append _ _

/-- What a header that was cut out says ends in its brace. -/
theorem brace_suffix_spoken (h : Fragment.Settled (.header v :: fs)) :
    [.char ' ', .char '{'] <:+ spoken v := by
  obtain ⟨hd, hread, -⟩ := exists_read h.1.1 h.1.2
  rw [spoken_of_read hread]
  exact hd.brace_suffix_write

/-- Plain text that begins with a keyword holds no header and says itself. -/
theorem read_and_spoken_of_plain (h : Fragment.Settled (.plain v :: fs))
    (hkey : isOpener v = true ∨ isChain v = true) : read v = none ∧ spoken v = v := by
  have hread := read_eq_none_of_isPlain h.1 hkey
  exact ⟨hread, (spoken_of_read_none hread).trans h.1.trimmed⟩

end Header

/-! ## Openings -/

namespace Stage

open Walk Fragment

variable {limit depth : Nat} {s t u : Stage} {base : Text} {ns : List Node} {f : Fragment}
  {fs : List Fragment}

/-- The fragment that **opens a block** in the next step: an opener, or the continuation that a
closer takes along. -/
def opening? (s : Stage) : Option Fragment :=
  match s.fragments, s.walk.stack with
  | .close :: f :: _, _ :: _ => if isChain f.value then some f else none
  | .close :: _, _ => none
  | f :: _, _ => if isOpener f.value then some f else none
  | [], _ => none

/-- A step leaves settled fragments. -/
theorem Step.settled (h : Step limit depth s t) (hs : Settled s.fragments) :
    Settled t.fragments := by
  cases h with
  | text hn => exact settled_segment _
  | node hn hline => exact hs
  | opened hf hopener => exact hs.tail
  | placed hf hopener => exact hs.tail
  | stray hw => exact hs.tail
  | ended hw hfs => exact hs.tail
  | chained hw hf => exact hs.tail.tail

/-- **The fragments of every stage are settled.** -/
theorem Reaches.settled (h : Reaches limit depth s t) (hs : Settled s.fragments) :
    Settled t.fragments := by
  induction h with
  | refl => exact hs
  | tail _ hstep ih => exact hstep.settled ih

/-- What is written for a fragment that opens a block, behind a `lead` on the same line. -/
theorem line_of_settled (hf : Settled (f :: fs))
    (hkey : isOpener f.value = true ∨ isChain f.value = true) (lead : Text) :
    (∃ v, f = .header v) ∧ [.char ' ', .char '{'] <:+ lead ++ Header.spoken f.value ∨
      ∃ v, f = .plain v ∧ Header.read v = none ∧ lead ++ Header.spoken f.value = lead ++ v := by
  cases f with
  | close => exact absurd hkey (by decide +kernel)
  | header v =>
    exact .inl ⟨⟨v, rfl⟩, (Header.brace_suffix_spoken hf).trans (List.suffix_append lead _)⟩
  | plain v =>
    obtain ⟨hread, hspoken⟩ := Header.read_and_spoken_of_plain hf hkey
    exact .inr ⟨v, rfl, hread, by rw [value, hspoken]⟩

/-- A fragment other than a closer opens a block if it is an opener. -/
theorem opening?_of_ne (hf : f ≠ .close) (w : Walk) (os : List Nat) (fs : List Fragment)
    (ns : List Node) :
    opening? ⟨w, os, f :: fs, ns⟩ = if isOpener f.value then some f else none := by
  cases f with
  | close => exact absurd rfl hf
  | plain v => rfl
  | header v => rfl

/-- A closer opens a block if it takes a continuation along, and only if there is a block to
continue. -/
theorem opening?_close (w : Walk) (os : List Nat) (fs : List Fragment) (ns : List Node) :
    opening? ⟨w, os, .close :: fs, ns⟩ =
      if w.stack.isEmpty then none else fs.head?.filter fun f => isChain f.value := by
  cases hstack : w.stack with
  | nil => cases fs <;> simp [opening?, hstack]
  | cons b stack => cases fs <;> simp [opening?, hstack, Option.filter]

/-- **A step opens a block or it opens none.** It opens the block of a fragment with the line that
the fragment says, at the indent of the block or behind the closer that stands there; or it leaves
the open blocks, or all but the innermost. -/
theorem Step.opening (h : Step limit depth t u) :
    t.opening? = none ∧ u.walk.stack <:+ t.walk.stack ∨
      ∃ f fs b rest lead, t.opening? = some f ∧ f :: fs <:+ t.fragments ∧
        (isOpener f.value = true ∨ isChain f.value = true) ∧
        u.walk.stack = b :: rest ∧ b.directive = f.value ∧
        u.walk.lines = t.walk.lines ++ [lead ++ Header.spoken f.value] ∧
        (lead = b.indent ∨ lead = b.indent ++ [.char '}', .char ' ']) := by
  cases h with
  | text hn => exact .inl ⟨rfl, List.suffix_rfl⟩
  | node hn hline => exact .inl ⟨rfl, [], stack_emit ..⟩
  | @opened w os f fs ns hf hopener =>
    refine .inr ⟨f, fs, _, _, w.indent, ?_, List.suffix_rfl, .inl hopener, rfl, rfl, ?_, .inl rfl⟩
    · rw [opening?_of_ne hf, if_pos hopener]
    · rw [← Header.value_line]
      rfl
  | @placed w os f fs ns hf hopener =>
    refine .inl ⟨?_, [], stack_emit ..⟩
    rw [opening?_of_ne hf, if_neg (by simp [hopener])]
  | stray hw =>
    refine .inl ⟨?_, List.suffix_rfl⟩
    rw [opening?_close, hw]
    rfl
  | @ended w os fs ns b stack hw hfs =>
    refine .inl ⟨?_, hw ▸ List.suffix_cons b stack⟩
    rw [opening?_close, hw]
    exact Option.filter_eq_none_iff.2 fun f hf => by simp [hfs f hf]
  | @chained w os f fs ns b stack hw hf =>
    -- The continuation stands behind the closer, so the closer is what leads its line.
    refine .inr ⟨f, fs, _, _, b.indent ++ [.char '}', .char ' '], ?_, List.suffix_cons _ _,
      .inr hf, rfl, rfl, rfl, .inr rfl⟩
    rw [opening?_close, hw]
    simp [hf]

/-- **What opens a block.** A step that opens none leaves the open blocks, or all but the innermost.
A step that opens one has just written its line: for a header a line that ends in a brace, and for a
plain text, which then holds no header, that text as it stands. -/
theorem line_of_opening (h : Reaches limit depth (start base ns) t) (hstep : Step limit depth t u) :
    (t.opening? = none → u.walk.stack <:+ t.walk.stack) ∧
      ∀ f, t.opening? = some f → ∃ b rest lead line,
        u.walk.stack = b :: rest ∧ b.directive = f.value ∧
        u.walk.lines = t.walk.lines ++ [line] ∧
        (lead = b.indent ∨ lead = b.indent ++ [.char '}', .char ' ']) ∧
        ((∃ v, f = .header v) ∧ [.char ' ', .char '{'] <:+ line ∨
          ∃ v, f = .plain v ∧ Header.read v = none ∧ line = lead ++ v) := by
  have hsettled : Settled t.fragments := h.settled trivial
  rcases hstep.opening with ⟨hnone, hstack⟩ |
    ⟨f, fs, b, rest, lead, hsome, hsuffix, hkey, hstack, hdirective, hlines, hlead⟩
  · exact ⟨fun _ => hstack, fun f hf => absurd (hnone.symm.trans hf) (by simp)⟩
  · refine ⟨fun hnone => absurd (hsome.symm.trans hnone) (by simp), fun g hg => ?_⟩
    obtain rfl : f = g := Option.some.inj (hsome.symm.trans hg)
    exact ⟨b, rest, lead, _, hstack, hdirective, hlines, hlead,
      line_of_settled (hsettled.of_isInfix hsuffix.isInfix) hkey lead⟩

/-- A header in a text node opens a block. -/
theorem line_of_opening_header :
    ∃ t u line, Reaches 1 0 (start [] [.text (some "@if(a)\x7b".toText)]) t ∧ Step 1 0 t u ∧
      t.opening? = some (.header "@if(a)\x7b".toText) ∧ u.walk.lines = t.walk.lines ++ [line] ∧
      [.char ' ', .char '{'] <:+ line := by
  have hcut : segment "@if(a)\x7b".toText = [.header "@if(a)\x7b".toText] := by decide +kernel
  have hreach := reaches_fragments hcut 1 0 [] []
  have hopener : isOpener (header "@if(a)\x7b".toText).value = true := by decide +kernel
  obtain ⟨-, hline⟩ := line_of_opening hreach (.opened (by decide) hopener)
  obtain ⟨b, rest, lead, line, -, -, hlines, -, ⟨-, hbrace⟩ | ⟨v, hv, -⟩⟩ :=
    hline (.header "@if(a)\x7b".toText) (by decide +kernel)
  · exact ⟨_, _, line, hreach, .opened (by decide) hopener, by decide +kernel, hlines, hbrace⟩
  · exact absurd hv Fragment.noConfusion

/-- **Plain text may open a block.** A keyword before an unclosed span, and a chain keyword behind a
closer, open blocks with lines that do not end in a brace, and what follows is laid out deeper. -/
theorem opening_without_brace :
    (∃ t u line, Reaches 1 0 (start [] [.text (some "@if (a) \x7b\x7b x".toText)]) t ∧
        Step 1 0 t u ∧ t.opening? = some (.plain "@if (a) \x7b\x7b x".toText) ∧
        u.walk.lines = t.walk.lines ++ [line] ∧ ¬ [.char ' ', .char '{'] <:+ line ∧
        u.walk.indent = indentUnit) ∧
      ∃ t u line, Reaches 1 0 (start [] [.text (some "@if(a)\x7b \x7d @else b".toText)]) t ∧
        Step 1 0 t u ∧ t.opening? = some (.plain "@else b".toText) ∧
        u.walk.lines = t.walk.lines ++ [line] ∧ ¬ [.char ' ', .char '{'] <:+ line ∧
        u.walk.indent = indentUnit := by
  constructor
  · have hcut : segment "@if (a) \x7b\x7b x".toText = [.plain "@if (a) \x7b\x7b x".toText] := by
      decide +kernel
    have hopener : isOpener (plain "@if (a) \x7b\x7b x".toText).value = true := by decide +kernel
    exact ⟨_, _, _, reaches_fragments hcut 1 0 [] [], .opened (by decide) hopener,
      by decide +kernel, rfl, by decide +kernel, rfl⟩
  · have hcut : segment "@if(a)\x7b \x7d @else b".toText =
        [.header "@if(a)\x7b".toText, .close, .plain "@else b".toText] := by
      decide +kernel
    have hreach := (reaches_fragments hcut 1 0 [] []).tail (.opened (by decide) (by decide +kernel))
    have hchain : isChain (plain "@else b".toText).value = true := by decide +kernel
    exact ⟨_, _, _, hreach, .chained rfl hchain, by decide +kernel, rfl, by decide +kernel, rfl⟩

end Stage

end TemplateLayout
