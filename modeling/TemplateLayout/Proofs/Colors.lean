import Mathlib.Data.List.Forall2
import TemplateLayout.Diagnostic.Basic
import TemplateLayout.Proofs.Lines
import TemplateLayout.Report

/-! # Colours say nothing
Every text that is shown on a terminal is written with colours or without them, and stripping the
first gives the second. The escape sequences stand at many places, several in a row or around no
text at all, so the law is proved part by part: a part is stripped to its plain form whatever stands
behind it. A sequence ends with its own letter and takes nothing of what follows along; that no text
brings an escape character of its own is what has to be asked of the input.

* `Text.Unescaped` — texts without an escape character, and the same for what is shown;
* `Terminal.Reads` — a part of a text is stripped to another;
* `Terminal.reads_paint` — a painted text is stripped to the text;
* `Terminal.strip_colored` — the law for all that is shown.
-/

namespace TemplateLayout

/-! ## Texts without an escape character -/

/-- A text is **unescaped** if no escape character is in it. -/
def Text.Unescaped (s : Text) : Prop := .char '\x1b' ∉ s

/-- A path is unescaped if the names of its fields are. -/
def Path.Unescaped (path : Path) : Prop := ∀ name, .field name ∈ path → Text.Unescaped name

/-- A snippet is unescaped if its lines are. -/
def Snippet.Unescaped (s : Snippet) : Prop := ∀ line ∈ s.lines, Text.Unescaped line.2

/-- An error in tree data is **unescaped** if every text that it holds is. -/
structure TreeError.Unescaped (e : TreeError) : Prop where
  /-- What is wrong. -/
  body : Text.Unescaped e.body
  /-- Where it is wrong. -/
  path : e.path.Unescaped
  /-- What may have been meant. -/
  suggestion : ∀ s ∈ e.suggestion, Text.Unescaped s
  /-- The lines around the error. -/
  snippet : ∀ s ∈ e.snippet, s.Unescaped

/-- A diagnostic is **unescaped** if every text that it holds is. -/
def Diagnostic.Unescaped : Diagnostic → Prop
  | .tree e => e.Unescaped
  | .nesting _ _ element => ∀ name ∈ element, Text.Unescaped name
  | .badOption name reason => Text.Unescaped name ∧ Text.Unescaped reason
  | .general text _ => Text.Unescaped text

/-- A report is **unescaped** if its name and its diff are. -/
structure Report.Unescaped (r : Report) : Prop where
  /-- The name of the template. -/
  name : Text.Unescaped r.name
  /-- The changes. -/
  diff : Text.Unescaped r.diff

namespace Text

variable {s t : Text} {c : CodePoint}

instance (s : Text) : Decidable (Unescaped s) := inferInstanceAs (Decidable (_ ∉ _))

theorem Unescaped.append (hs : Unescaped s) (ht : Unescaped t) : Unescaped (s ++ t) := by
  intro h
  exact (List.mem_append.1 h).elim hs ht

theorem unescaped_spaces (n : Nat) : Unescaped (spaces n) :=
  fun h => absurd (List.eq_of_mem_replicate h) (by decide)

theorem unescaped_ofInt (i : Int) : Unescaped (ofInt i) :=
  fun h => absurd (eq_minus_or_isDigit_of_mem_ofInt h) (by decide)

end Text

/-- No code has an escape character. -/
theorem Code.unescaped_text (code : Code) : Text.Unescaped code.text := by
  cases code <;> decide

/-- The location of an unescaped path is unescaped. -/
theorem Path.Unescaped.location {path : Path} (h : path.Unescaped) :
    Text.Unescaped path.location := by
  refine Text.Unescaped.append (by decide) fun hmem => ?_
  obtain ⟨step, hstep, hmem⟩ := List.mem_flatMap.1 hmem
  cases step with
  | field name =>
    rcases List.mem_cons.1 hmem with hmem | hmem
    · simp at hmem
    · exact h name hstep hmem
  | index i =>
    have hindex : Text.Unescaped (Step.index i).location :=
      Text.Unescaped.append (s := [.char '[']) (by decide)
        ((Text.unescaped_ofInt i).append (by decide))
    exact hindex hmem

/-! ## Stripping -/

namespace Terminal

open Text

variable {s t s' t' : Text} {c : CodePoint} {ls ms : List Text} {code : Option Text}

/-- A part of a text **reads** as another if it is stripped to that, whatever stands behind it. -/
def Reads (s t : Text) : Prop := ∀ r, strip (s ++ r) = t ++ strip r

/-- Alone it is stripped to that, too. -/
theorem Reads.strip_eq (h : Reads s t) : strip s = t := by
  have hnil := h []
  rwa [List.append_nil, strip, List.append_nil] at hnil

theorem reads_nil : Reads [] [] := fun _ => rfl

/-- **Parts are read one after the other.** -/
theorem Reads.append (h : Reads s t) (h' : Reads s' t') : Reads (s ++ s') (t ++ t') := by
  intro r
  rw [List.append_assoc, h, h', List.append_assoc]

/-- Any character but the escape character is kept. -/
theorem Reads.cons (hc : c ≠ .char '\x1b') (h : Reads s t) : Reads (c :: s) (c :: t) := by
  intro r
  rw [List.cons_append, strip, h, List.cons_append]
  exact hc

/-- An unescaped text reads as it stands. -/
theorem reads_of_unescaped (hs : Unescaped s) : Reads s s := by
  induction s with
  | nil => exact reads_nil
  | cons c s ih =>
    refine Reads.cons (fun hc => hs (hc ▸ List.mem_cons_self)) ?_
    exact ih fun h => hs (List.mem_cons_of_mem _ h)

/-- Lines that read as others, joined, read as those joined. -/
theorem reads_joinLines (h : List.Forall₂ Reads ls ms) : Reads (joinLines ls) (joinLines ms) := by
  induction h with
  | nil => exact reads_nil
  | @cons l m ls ms hl hls ih =>
    cases hls with
    | nil => simpa using hl
    | cons _ _ =>
      rw [joinLines_cons_cons, joinLines_cons_cons]
      exact hl.append (ih.cons (by decide))

/-! ## Painting -/

/-- A digit may be a parameter of an escape sequence. -/
theorem within_of_isDigit (hc : c.isDigit = true) : within 0x30 0x3F c = true := by
  cases c with
  | surrogate n => exact absurd hc Bool.false_ne_true
  | char d =>
    have hd : d.isDigit = true := hc
    simp only [Char.isDigit, Bool.and_eq_true, decide_eq_true_eq, ge_iff_le,
      UInt32.le_iff_toNat_le] at hd
    have hlow : 48 ≤ d.toNat := hd.1
    have hhigh : d.toNat ≤ 57 := hd.2
    exact Bool.and_eq_true_iff.2 ⟨decide_eq_true hlow, decide_eq_true (by
      rw [CodePoint.toNat_char]
      omega)⟩

/-- **A sequence ends with its letter**: numerals before it are its parameters, and what stands
behind it is not part of it. -/
theorem sequenceLength_parameters {ds : Text} (hds : ∀ d ∈ ds, within 0x30 0x3F d = true)
    (r : Text) : sequenceLength (.char '[' :: (ds ++ .char 'm' :: r)) = some (ds.length + 2) := by
  -- The letter is neither a parameter nor an intermediate, so both runs stop before it.
  have hparameters : (ds ++ .char 'm' :: r).takeWhile (within 0x30 0x3F) = ds := by
    have hm : within 0x30 0x3F (.char 'm') = false := by decide
    rw [List.takeWhile_append_of_pos hds, List.takeWhile_cons, hm]
    simp
  have hintermediates : ((.char 'm' :: r : Text).takeWhile (within 0x20 0x2F)) = [] := by
    have hm : within 0x20 0x2F (.char 'm') = false := by decide
    rw [List.takeWhile_cons, hm]
    rfl
  have hfinal : within 0x40 0x7E (.char 'm') = true := by decide
  simp only [sequenceLength, hparameters, List.drop_left, hintermediates, List.length_nil,
    Nat.add_zero, hfinal, if_true]

/-- The escape sequence of a colour reads as nothing. -/
theorem reads_sequence (color : Color) : Reads color.sequence [] := by
  intro r
  have hdigits : ∀ d ∈ Text.ofNat color.number, within 0x30 0x3F d = true :=
    fun d hd => within_of_isDigit (isDigit_of_mem_ofNat hd)
  have hsequence : color.sequence ++ r =
      .char '\x1b' :: .char '[' :: (Text.ofNat color.number ++ .char 'm' :: r) := by
    simp [Color.sequence]
  rw [hsequence, strip, sequenceLength_parameters hdigits]
  simp

/-- **A painted text reads as the text**, in whatever colours. -/
theorem reads_paint (on : Bool) (colors : List Color) (hs : Unescaped s) :
    Reads (paint on colors s) s := by
  have hcolors : Reads (colors.flatMap Color.sequence) [] := by
    induction colors with
    | nil => exact reads_nil
    | cons color colors ih => exact (reads_sequence color).append ih
  unfold paint
  split
  · have h := (hcolors.append (reads_of_unescaped hs)).append (reads_sequence .reset)
    rwa [List.nil_append, List.append_nil] at h
  · exact reads_of_unescaped hs

theorem reads_paintAs (on : Bool) (role : Role) (hs : Unescaped s) :
    Reads (paintAs on role s) s :=
  reads_paint on role.colors hs

/-! ## What is shown -/

theorem diffLine_off (s : Text) : diffLine false s = s := by
  simp only [diffLine, paint_off, ite_self]

/-- A line of a diff reads as it stands, whatever marker it has. -/
theorem reads_diffLine (on : Bool) (hs : Unescaped s) : Reads (diffLine on s) s := by
  unfold diffLine
  split
  · exact reads_paint on _ hs
  · split
    · exact reads_paint on _ hs
    · split
      · exact reads_paint on _ hs
      · split
        · exact reads_paint on _ hs
        · exact reads_of_unescaped hs

/-- A code before a message leaves what the message reads as. -/
theorem reads_errorHeader (on : Bool) (hcode : ∀ c ∈ code, Unescaped c) (h : Reads s t) :
    Reads (errorHeader on code s) (errorHeader false code t) := by
  match code with
  | none => exact h
  | some [] => exact h
  | some (c :: cs) =>
    exact ((reads_paintAs on .errorCode (hcode _ rfl)).append
      (reads_of_unescaped (by decide))).append h

/-- A source line reads as it is without colours. -/
theorem reads_sourceLine (on : Bool) (number : Int) (hs : Unescaped s) (isError : Bool) :
    Reads (sourceLine on number s isError) (sourceLine false number s isError) := by
  have hnumber : Unescaped (alignRight 3 (Text.ofInt number)) :=
    (unescaped_spaces _).append (unescaped_ofInt number)
  have hmarked : Unescaped ((if isError then .char '>' else .char ' ') ::
      alignRight 3 (Text.ofInt number)) := by
    intro h
    rcases List.mem_cons.1 h with h | h
    · cases isError <;> simp at h
    · exact hnumber h
  exact ((reads_paintAs on .lineNumber hmarked).append (reads_of_unescaped (by decide))).append
    (reads_paintAs on _ hs)

end Terminal

open Terminal Text

variable {s : Text}

/-- A snippet reads as it is without colours. -/
theorem Snippet.reads_render (on : Bool) {s : Snippet} (hs : s.Unescaped) :
    Reads (s.render on) (s.render false) := by
  have hrule : Reads (paintAs on .background "   |".toText) "   |".toText :=
    reads_paintAs on .background (by decide)
  have hbody : List.Forall₂ Reads
      (s.lines.map fun l => sourceLine on l.1 l.2 (l.1 == s.errorLine))
      (s.lines.map fun l => sourceLine false l.1 l.2 (l.1 == s.errorLine)) := by
    rw [List.forall₂_map_left_iff, List.forall₂_map_right_iff, List.forall₂_same]
    exact fun l hl => reads_sourceLine on l.1 (hs l hl) _
  -- Only the line of the caret depends on the column.
  obtain ⟨lines, errorLine, column⟩ := s
  cases column with
  | none =>
    exact reads_joinLines (List.rel_append (List.rel_append (.cons hrule hbody) .nil)
      (.cons hrule .nil))
  | some c =>
    have hcaret : Text.Unescaped (spaces c.toNat ++ [.char '^']) :=
      (unescaped_spaces _).append (by decide)
    have hline := hrule.append ((reads_paintAs on .errorLine hcaret).cons (c := .char ' ')
      (by decide))
    exact reads_joinLines (List.rel_append (List.rel_append (.cons hrule hbody)
      (.cons hline .nil)) (.cons hrule .nil))

namespace TreeError

variable {e : TreeError}

/-- The message of an error in tree data reads as it is without colours. -/
theorem reads_message (on : Bool) (he : e.Unescaped) : Reads (e.message on) (e.message false) := by
  have hplace : Text.Unescaped (e.body ++ " at ".toText ++ e.path.location) :=
    (he.body.append (by decide)).append he.path.location
  obtain ⟨body, path, code, suggestion, snippet⟩ := e
  match suggestion with
  | none => exact reads_of_unescaped hplace
  | some [] => exact reads_of_unescaped hplace
  | some (c :: cs) =>
    exact ((reads_of_unescaped (hplace.append (by decide))).append
      (reads_paintAs on .suggestion (he.suggestion _ rfl))).append
        (reads_of_unescaped (by decide))

/-- So does what a terminal shows of it. -/
theorem reads_compact (on : Bool) (he : e.Unescaped) : Reads (e.compact on) (e.compact false) := by
  have hhead : Reads (errorHeader on (some e.code.text) (e.message on))
      (errorHeader false (some e.code.text) (e.message false)) := by
    refine reads_errorHeader on ?_ (reads_message on he)
    rintro _ ⟨⟩
    exact e.code.unescaped_text
  obtain ⟨body, path, code, suggestion, snippet⟩ := e
  cases snippet with
  | none => exact hhead
  | some s => exact hhead.append ((Snippet.reads_render on (he.snippet s rfl)).cons (by decide))

end TreeError

namespace Diagnostic

variable {d : Diagnostic}

/-- The message of a bad option has no escape character of its own. -/
theorem unescaped_badOption {name reason : Text} (hname : Text.Unescaped name)
    (hreason : Text.Unescaped reason) :
    Text.Unescaped ("Invalid option '".toText ++ name ++ "': ".toText ++ reason) :=
  .append (.append (.append (by decide) hname) (by decide)) hreason

/-- What a diagnostic says reads as it is without colours. -/
theorem reads_message (on : Bool) (hd : d.Unescaped) : Reads (d.message on) (d.message false) := by
  match d with
  | .tree e => exact TreeError.reads_message on hd
  | .nesting depth limit element =>
    have htext : Text.Unescaped ("Element nesting depth ".toText ++ Text.ofInt depth ++
        " exceeds max_depth=".toText ++ Text.ofInt limit) :=
      .append (.append (.append (by decide) (unescaped_ofInt depth)) (by decide))
        (unescaped_ofInt limit)
    match element with
    | none => exact reads_of_unescaped htext
    | some [] => exact reads_of_unescaped htext
    | some (c :: cs) =>
      exact reads_of_unescaped (((htext.append (by decide)).append (hd _ rfl)).append (by decide))
  | .badOption name reason =>
    exact reads_of_unescaped (unescaped_badOption hd.1 hd.2)
  | .general text code => exact reads_of_unescaped hd

/-- A message under its code reads as it is without colours. -/
theorem reads_underCode (on : Bool) (code : Option Code) (hs : Text.Unescaped s) :
    Reads (underCode on code s) (underCode false code s) := by
  cases code with
  | none => exact reads_of_unescaped hs
  | some c =>
    by_cases hshown : Text.occursIn c.text s = true
    · rw [underCode, underCode, if_pos hshown, if_pos hshown]
      exact reads_of_unescaped hs
    · rw [underCode, underCode, if_neg hshown, if_neg hshown]
      refine reads_errorHeader on ?_ (reads_of_unescaped hs)
      rintro _ ⟨⟩
      exact c.unescaped_text

/-- What a terminal shows of a diagnostic reads as it is without colours. -/
theorem reads_compact (on : Bool) (hd : d.Unescaped) : Reads (d.compact on) (d.compact false) := by
  match d with
  | .tree e => exact TreeError.reads_compact on hd
  | .nesting depth limit element =>
    have hhint : Reads (depthHint on) (depthHint false) :=
      .append (.append (reads_of_unescaped (by decide)) (reads_paintAs on .hint (by decide)))
        (reads_of_unescaped (by decide))
    refine Reads.append (reads_errorHeader on ?_ (reads_message on hd)) (hhint.cons (by decide))
    rintro _ ⟨⟩
    exact Code.nestingDepth.unescaped_text
  | .badOption name reason =>
    exact reads_underCode on (some .invalidOption) (unescaped_badOption hd.1 hd.2)
  | .general text code => exact reads_underCode on code hd

end Diagnostic

namespace Report

variable {r : Report}

/-- Each line of a report reads as it is without colours. -/
theorem reads_lines (on : Bool) (hr : r.Unescaped) :
    List.Forall₂ Reads (r.lines on) (r.lines false) := by
  have htitle : Reads (paintAs on .location r.name ++ [.char ':', .char ' '])
      (r.name ++ [.char ':', .char ' ']) :=
    (reads_paintAs on .location hr.name).append (reads_of_unescaped (by decide))
  unfold lines
  split
  · refine .cons (htitle.append (reads_paintAs on .errorLine (by decide))) ?_
    rw [List.forall₂_map_left_iff, List.forall₂_map_right_iff, List.forall₂_same]
    intro l hl
    rw [diffLine_off]
    exact reads_diffLine on fun hmem => hr.diff (mem_of_mem_splitLines hl hmem)
  · exact .cons (htitle.append (reads_paintAs on .hint (by decide))) .nil

/-- A report without colours is its lines, kept or stripped. -/
theorem render_off (hr : r.Unescaped) (keep : Option Bool) :
    r.render false keep = joinLines (r.lines false) := by
  unfold render
  split
  · rfl
  · exact (reads_joinLines (reads_lines false hr)).strip_eq

/-- **A report is stripped to the report without colours**, whether its colours were kept or not. -/
theorem strip_render (on : Bool) (hr : r.Unescaped) (keep : Option Bool) :
    strip (r.render on keep) = joinLines (r.lines false) := by
  have hstrip := (reads_joinLines (reads_lines on hr)).strip_eq
  -- A report that was stripped already is stripped once more.
  unfold render
  split
  · exact hstrip
  · rw [hstrip]
    exact (reads_joinLines (reads_lines false hr)).strip_eq

end Report

/-- **Colours never change what is said.** Where no input has an escape character, stripping a text
that is shown with colours gives the text that is shown without them: lines of a diff, messages
under a code, source lines, snippets, diagnostics with their messages, and reports, whether these
keep their escape sequences or not. A report that does not keep them is the same with colours and
without. -/
theorem Terminal.strip_colored :
    (∀ s, Text.Unescaped s → strip (diffLine true s) = diffLine false s) ∧
      (∀ code message, (∀ c ∈ code, Text.Unescaped c) → Text.Unescaped message →
        strip (errorHeader true code message) = errorHeader false code message) ∧
      (∀ number content isError, Text.Unescaped content →
        strip (sourceLine true number content isError) =
          sourceLine false number content isError) ∧
      (∀ s : Snippet, s.Unescaped → strip (s.render true) = s.render false) ∧
      (∀ d : Diagnostic, d.Unescaped →
        strip (d.message true) = d.message false ∧ strip (d.compact true) = d.compact false) ∧
      ∀ r : Report, r.Unescaped →
        (∀ keep, strip (r.render true keep) = r.render false keep) ∧
          r.render true (some false) = r.render false (some false) := by
  refine ⟨fun s hs => ?_, fun code message hcode hmessage => ?_,
    fun number content isError hcontent => ?_, fun s hs => ?_, fun d hd => ⟨?_, ?_⟩,
    fun r hr => ⟨fun keep => ?_, ?_⟩⟩
  · rw [diffLine_off]
    exact (reads_diffLine true hs).strip_eq
  · exact (reads_errorHeader true hcode (reads_of_unescaped hmessage)).strip_eq
  · exact (reads_sourceLine true number hcontent isError).strip_eq
  · exact (Snippet.reads_render true hs).strip_eq
  · exact (Diagnostic.reads_message true hd).strip_eq
  · exact (Diagnostic.reads_compact true hd).strip_eq
  · rw [Report.strip_render true hr, Report.render_off hr]
  · rw [Report.render_off hr]
    exact (reads_joinLines (Report.reads_lines true hr)).strip_eq

/-- An error with a proposal, which is painted in two colours inside its sentence, and a report with
a changed line. -/
theorem Terminal.strip_colored_suggestion :
    strip ((Diagnostic.tree ⟨"No 'elment'".toText, [.field "children".toText, .index 1],
        .unknownNodeType, some "element".toText, none⟩).compact true) =
        "NGF-TRE-001: No 'elment' at root.children[1]. Did you mean 'element'?".toText ∧
      strip ((Report.mk "a".toText true "-b\n+c".toText).render true none) =
        "a: would reformat\n-b\n+c".toText := by
  have herror : TreeError.Unescaped ⟨"No 'elment'".toText, [.field "children".toText, .index 1],
      .unknownNodeType, some "element".toText, none⟩ := by
    refine ⟨by decide, fun name hname => ?_, ?_, ?_⟩
    · obtain rfl : name = "children".toText := by simpa using hname
      decide
    · rintro _ ⟨⟩
      decide
    · rintro _ ⟨⟩
  have hreport : Report.Unescaped ⟨"a".toText, true, "-b\n+c".toText⟩ := ⟨by decide, by decide⟩
  obtain ⟨-, -, -, -, hdiagnostics, hreports⟩ := strip_colored
  exact ⟨(hdiagnostics (.tree _) herror).2.trans (by decide +kernel),
    ((hreports _ hreport).1 none).trans (by decide +kernel)⟩

end TemplateLayout
