import Mathlib.Data.List.Infix
import TemplateLayout.Proofs.Failures
import TemplateLayout.Proofs.Openings

/-! # Formatting at another indent
Where no document of a tree has a declaration, the tree is formatted to the same lines at every
indent: the indent stands before each line that is started, and nothing else depends on it. A
comment, an attribute or a run of plain text lies inside one such line, whatever line feeds it
holds, so the lines inside it stay where they are.

* `Entry` — what a walk writes, without the indent: the lines that are started in it;
* `Draft` — a walk without the indent, and `Draft.walk` the walk at an indent;
* `Node.verbatim` — the texts of a tree that are written as they stand;
* `Node.declares` — whether a document of a tree has a declaration;
* `Node.exists_entry` — a node is rendered to one entry at every indent;
* `Node.format_at_indent` — the law for formatting.
-/

namespace TemplateLayout

open Text Directive

variable {s v : Text} {ls ms : List Text}

/-! ## Entries -/

namespace Text

/-- Lines below others are joined to them by a line feed. -/
theorem joinLines_append (hls : ls ≠ []) (hms : ms ≠ []) :
    joinLines (ls ++ ms) = joinLines ls ++ .char '\n' :: joinLines ms := by
  induction ls with
  | nil => exact absurd rfl hls
  | cons l ls ih =>
    cases ls with
    | nil =>
      obtain ⟨m, ms, rfl⟩ := List.exists_cons_of_ne_nil hms
      simp
    | cons l' ls =>
      rw [List.cons_append, List.cons_append, joinLines_cons_cons, joinLines_cons_cons,
        ← List.cons_append, ih (List.cons_ne_nil _ _), List.append_assoc, List.cons_append]

/-- What shows of a text decides whether it is blank. -/
theorem allBlank_congr {t : Text} (h : visible s = visible t) : allBlank s = allBlank t := by
  rw [Bool.eq_iff_iff, ← visible_eq_nil_iff, ← visible_eq_nil_iff, h]

/-- Lines are blank together exactly if each of them is. -/
theorem allBlank_joinLines (ls : List Text) : allBlank (joinLines ls) = ls.all allBlank := by
  induction ls with
  | nil => rfl
  | cons l ls ih =>
    cases ls with
    | nil => simp
    | cons m ls =>
      rw [joinLines_cons_cons, allBlank_append, allBlank_cons, isBlank_lineFeed, ih,
        Bool.true_and]
      rfl

end Text

/-- An **entry** without its indent: the lines that are started in it, not all of them blank. -/
structure Entry where
  /-- The lines. One may hold line feeds, and what follows those is not moved. -/
  lines : List Text
  /-- Something shows. -/
  shows : ∃ l ∈ lines, allBlank l = false

namespace Entry

variable {e e' : Entry} {es : List Entry}

/-- The **text of an entry at an indent**, which stands before each of its lines. -/
def text (e : Entry) (indent : Text) : Text := joinLines (e.lines.map (indent ++ ·))

/-- An entry **holds** a text inside one of its lines. -/
def Holds (e : Entry) (v : Text) : Prop := ∃ l ∈ e.lines, v <:+: l

theorem ne_nil (e : Entry) : e.lines ≠ [] := by
  obtain ⟨l, hl, -⟩ := e.shows
  exact List.ne_nil_of_mem hl

/-- An entry is blank at no indent. -/
theorem not_allBlank_text (e : Entry) (indent : Text) : allBlank (e.text indent) = false := by
  obtain ⟨l, hl, hshows⟩ := e.shows
  rw [text, allBlank_joinLines, List.all_eq_false]
  refine ⟨indent ++ l, List.mem_map_of_mem hl, ?_⟩
  rw [allBlank_append, hshows, Bool.and_false]
  exact Bool.false_ne_true

/-- One line. -/
def line (l : Text) (h : allBlank l = false) : Entry := ⟨[l], l, List.mem_singleton_self l, h⟩

@[simp] theorem text_line (l : Text) (h : allBlank l = false) (indent : Text) :
    (line l h).text indent = indent ++ l :=
  joinLines_singleton _

theorem holds_line (h : allBlank s = false) (hv : v <:+: s) : (line s h).Holds v :=
  ⟨s, List.mem_singleton_self s, hv⟩

/-- An entry and the lines of another below it. -/
def below (e e' : Entry) : Entry :=
  ⟨e.lines ++ e'.lines, e.shows.imp fun _ h => ⟨List.mem_append_left _ h.1, h.2⟩⟩

@[simp] theorem text_below (e e' : Entry) (indent : Text) :
    (e.below e').text indent = e.text indent ++ .char '\n' :: e'.text indent := by
  rw [text, below, List.map_append, joinLines_append (by simpa using e.ne_nil)
    (by simpa using e'.ne_nil)]
  rfl

theorem Holds.below_left (h : e.Holds v) (e' : Entry) : (e.below e').Holds v :=
  h.imp fun _ h => ⟨List.mem_append_left _ h.1, h.2⟩

theorem Holds.below_right (h : e'.Holds v) (e : Entry) : (e.below e').Holds v :=
  h.imp fun _ h => ⟨List.mem_append_right _ h.1, h.2⟩

/-- An entry at a deeper indent. -/
def deeper (e : Entry) (indent : Text) : Entry where
  lines := e.lines.map (indent ++ ·)
  shows := by
    obtain ⟨l, hl, hshows⟩ := e.shows
    exact ⟨indent ++ l, List.mem_map_of_mem hl, by rw [allBlank_append, hshows, Bool.and_false]⟩

@[simp] theorem text_deeper (e : Entry) (indent indent' : Text) :
    (e.deeper indent').text indent = e.text (indent ++ indent') := by
  simp only [text, deeper, List.map_map, Function.comp_def, List.append_assoc]

theorem Holds.deeper (h : e.Holds v) (indent : Text) : (e.deeper indent).Holds v := by
  obtain ⟨l, hl, hv⟩ := h
  exact ⟨indent ++ l, List.mem_map_of_mem hl, hv.trans (List.suffix_append _ _).isInfix⟩

/-- **A text can be put behind an entry**: it goes on with the last line. -/
theorem exists_behind (e : Entry) (s : Text) :
    ∃ e' : Entry, (∀ indent, e'.text indent = e.text indent ++ s) ∧
      ∀ v, e.Holds v → e'.Holds v := by
  obtain ⟨ls, l, hlines⟩ := (List.eq_nil_or_concat' e.lines).resolve_left e.ne_nil
  -- Every line is found again, the last one with the text behind it.
  have hmem {k : Text} (hk : k ∈ e.lines) : ∃ k' ∈ ls ++ [l ++ s], k <+: k' := by
    rw [hlines, List.mem_append, List.mem_singleton] at hk
    rcases hk with hk | rfl
    · exact ⟨k, List.mem_append_left _ hk, List.prefix_refl k⟩
    · exact ⟨k ++ s, List.mem_append_right _ (List.mem_singleton_self _), List.prefix_append k s⟩
  have hshows : ∃ k ∈ ls ++ [l ++ s], allBlank k = false := by
    obtain ⟨k, hk, hshows⟩ := e.shows
    obtain ⟨_, hk', t, rfl⟩ := hmem hk
    exact ⟨k ++ t, hk', by rw [allBlank_append, hshows, Bool.false_and]⟩
  refine ⟨⟨ls ++ [l ++ s], hshows⟩, fun indent => ?_, ?_⟩
  · rw [text, text, hlines, List.map_append, List.map_append]
    cases ls with
    | nil => simp
    | cons k ls =>
      rw [joinLines_append (by simp) (by simp), joinLines_append (by simp) (by simp)]
      simp
  · rintro v ⟨k, hk, hv⟩
    obtain ⟨k', hk', hprefix⟩ := hmem hk
    exact ⟨k', hk', hv.trans hprefix.isInfix⟩

/-- **Entries one below the other** are one entry, if there are any. -/
theorem exists_join (hes : es ≠ []) :
    ∃ e : Entry, (∀ indent, joinLines (es.map (·.text indent)) = e.text indent) ∧
      ∀ e' ∈ es, ∀ v, e'.Holds v → e.Holds v := by
  induction es with
  | nil => exact absurd rfl hes
  | cons e₁ es ih =>
    by_cases hnil : es = []
    · refine ⟨e₁, fun indent => ?_, fun e' he' v hv => ?_⟩
      · rw [hnil, List.map_singleton, joinLines_singleton]
      · rw [hnil, List.mem_singleton] at he'
        rwa [he'] at hv
    · obtain ⟨e, htext, hholds⟩ := ih hnil
      refine ⟨e₁.below e, fun indent => ?_, fun e' he' v hv => ?_⟩
      · rw [text_below, ← htext, List.map_cons, ← List.singleton_append,
          joinLines_append (by simp) (by simpa using hnil), joinLines_singleton]
      · rcases List.mem_cons.1 he' with rfl | he'
        · exact hv.below_left e
        · exact (hholds e' he' v hv).below_right e₁

/-- The text of an entry at an indent, or no text where there is no entry. -/
def text? (e : Option Entry) (indent : Text) : Text := (e.map (·.text indent)).getD []

end Entry

/-! ## Tags -/

namespace Tag

open Entry

/-- A tag shows at least its bracket. -/
theorem not_allBlank_tag (s : Text) : allBlank (.char '<' :: s) = false := by
  rw [allBlank_cons]
  exact Bool.and_eq_false_iff.2 (.inl (by decide))

/-- **The opening tag is an entry** that holds each attribute. -/
theorem exists_opening (name : Text) (attrs : List Attribute) (content : Bool) :
    ∃ e : Entry, (∀ indent, opening name attrs content indent = e.text indent) ∧
      ∀ a ∈ attrs, e.Holds a.write := by
  -- The tag without its last bracket: the name, then each attribute on a line of its own.
  suffices h : ∃ e : Entry,
      (∀ indent, e.text indent = indent ++ .char '<' :: name ++ attributes attrs
        (indent ++ if content then indentUnit ++ indentUnit else indentUnit)) ∧
      ∀ a ∈ attrs, e.Holds a.write by
    obtain ⟨e, htext, hholds⟩ := h
    obtain ⟨e', htext', hholds'⟩ := e.exists_behind [.char '>']
    exact ⟨e', fun indent => by rw [htext', htext]; rfl, fun a ha => hholds' _ (hholds a ha)⟩
  match attrs with
  | [] => exact ⟨line _ (not_allBlank_tag name), by simp [attributes], by simp⟩
  | [a] =>
    refine ⟨line _ (not_allBlank_tag (name ++ .char ' ' :: a.write)), ?_, ?_⟩
    · simp [attributes]
    · intro a' ha'
      rw [List.mem_singleton.1 ha']
      refine holds_line _ (List.IsSuffix.isInfix ?_)
      exact ⟨.char '<' :: name ++ [.char ' '], by simp⟩
  | a₁ :: a₂ :: as =>
    generalize hdeeper : (if content then indentUnit ++ indentUnit else indentUnit) = deeper
    refine ⟨⟨(.char '<' :: name) :: (a₁ :: a₂ :: as).map fun a => deeper ++ a.write,
      _, List.mem_cons_self, not_allBlank_tag name⟩, ?_, ?_⟩
    · intro indent
      rw [text, List.map_cons, ← List.singleton_append, joinLines_append (by simp) (by simp),
        joinLines_singleton, attributes, Attribute.writeAll, List.map_map]
      · simp only [Function.comp_def, List.append_assoc]
      all_goals simp
    · intro a ha
      exact ⟨deeper ++ a.write, List.mem_cons_of_mem _ (List.mem_map_of_mem ha),
        (List.suffix_append _ _).isInfix⟩

theorem not_allBlank_closing (name : Text) : allBlank (closing name) = false :=
  not_allBlank_tag (.char '/' :: name ++ [.char '>'])

/-- **An element without content is an entry** that holds each attribute. -/
theorem exists_empty (name : Text) (attrs : List Attribute) :
    ∃ e : Entry, (∀ indent, Tag.empty name attrs indent = e.text indent) ∧
      ∀ a ∈ attrs, e.Holds a.write := by
  obtain ⟨e, htext, hholds⟩ := exists_opening name attrs false
  unfold Tag.empty
  split
  · exact ⟨e, htext, hholds⟩
  · split
    · obtain ⟨e', htext', hholds'⟩ := e.exists_behind (closing name)
      exact ⟨e', fun indent => by rw [htext', htext], fun a ha => hholds' _ (hholds a ha)⟩
    · refine ⟨e.below (line _ (not_allBlank_closing name)), fun indent => ?_,
        fun a ha => (hholds a ha).below_left _⟩
      rw [text_below, text_line, htext]
      simp

/-- **An element around its content is an entry** that holds each attribute and what the entries of
the content hold. -/
theorem exists_around (name : Text) (attrs : List Attribute) (es : List Entry) :
    ∃ e : Entry, (∀ indent, around name attrs indent (es.map (·.text indent)) = e.text indent) ∧
      (∀ a ∈ attrs, e.Holds a.write) ∧ ∀ e' ∈ es, ∀ v, e'.Holds v → e.Holds v := by
  obtain ⟨e, htext, hholds⟩ := exists_opening name attrs true
  -- Without any entry inside, the opening tag is followed by an empty line at no indent.
  suffices h : ∃ e' : Entry,
      (∀ indent, e'.text indent =
        e.text indent ++ .char '\n' :: joinLines (es.map (·.text indent))) ∧
      (∀ a ∈ attrs, e'.Holds a.write) ∧ ∀ e₁ ∈ es, ∀ v, e₁.Holds v → e'.Holds v by
    obtain ⟨e', htext', hattrs, hcontent⟩ := h
    refine ⟨e'.below (line _ (not_allBlank_closing name)), fun indent => ?_,
      fun a ha => (hattrs a ha).below_left _,
      fun e₁ he₁ v hv => (hcontent e₁ he₁ v hv).below_left _⟩
    rw [text_below, text_line, htext', around, htext]
    simp
  by_cases hes : es = []
  · obtain ⟨e', htext', hholds'⟩ := e.exists_behind [.char '\n']
    exact ⟨e', fun indent => by rw [htext', hes]; rfl, fun a ha => hholds' _ (hholds a ha),
      by simp [hes]⟩
  · obtain ⟨e', htext', hholds'⟩ := exists_join hes
    refine ⟨e.below e', fun indent => ?_, fun a ha => (hholds a ha).below_left _,
      fun e₁ he₁ v hv => (hholds' e₁ he₁ v hv).below_right e⟩
    rw [text_below, htext']

end Tag

/-! ## Drafts -/

/-- A **draft**: a walk without the indent that it starts from. -/
structure Draft where
  /-- The indent of the sequence relative to that indent. -/
  base : Text
  /-- The open blocks, their indents relative to it. -/
  stack : BlockStack
  /-- The entries written so far. -/
  entries : List Entry

/-- A block moved to an indent. -/
def Block.moved (b : Block) (indent : Text) : Block := { b with indent := indent ++ b.indent }

namespace Draft

open Walk

variable {d d' d'' : Draft} {vs us : List Text} {e : Entry} {b : Block} {stack : BlockStack}

/-- The start of a sequence whose indent lies deeper by `base`. -/
def start (base : Text) : Draft := ⟨base, [], []⟩

/-- The **walk of a draft** at an indent. -/
def walk (d : Draft) (indent : Text) : Walk :=
  ⟨indent ++ d.base, d.stack.map (·.moved indent), d.entries.map (·.text indent)⟩

theorem walk_start (base s : Text) : (start base).walk s = Walk.start (s ++ base) := rfl

/-- The indent of what comes next, relative to that of the draft. -/
def indent (d : Draft) : Text := d.stack.indent d.base

theorem indent_walk (d : Draft) (s : Text) : (d.walk s).indent = s ++ d.indent := by
  unfold Walk.indent indent BlockStack.indent
  cases hstack : d.stack with
  | nil => simp [walk, hstack, BlockStack.top?]
  | cons b stack => simp [walk, hstack, BlockStack.top?, Block.contentIndent, Block.moved]

/-- Writes an entry. -/
def write (d : Draft) (e : Entry) : Draft := { d with entries := d.entries ++ [e] }

/-- Writes an entry and leaves other blocks open. -/
def writeWith (d : Draft) (e : Entry) (stack : BlockStack) : Draft :=
  { d.write e with stack := stack }

theorem walk_write (d : Draft) (e : Entry) (s : Text) :
    (d.write e).walk s = (d.walk s).write (e.text s) := by
  simp [walk, write, Walk.write]

theorem walk_writeWith (d : Draft) (e : Entry) (stack : BlockStack) (s : Text) :
    (d.writeWith e stack).walk s =
      { (d.walk s).write (e.text s) with stack := stack.map (·.moved s) } := by
  simp [walk, writeWith, write, Walk.write]

/-- An entry is never taken for a blank line. -/
theorem emit_walk (d : Draft) (e : Entry) (s : Text) :
    (d.walk s).emit (e.text s) = (d.write e).walk s := by
  rw [Walk.emit, e.not_allBlank_text, if_neg Bool.false_ne_true, walk_write]

/-- A block is opened at the indent of the draft. -/
theorem openBlock_walk (d : Draft) (directive : Text) (e : Entry) (s : Text) :
    (d.walk s).openBlock directive (e.text s) =
      (d.writeWith e (d.stack.push ⟨directive, d.indent⟩)).walk s := by
  rw [walk_writeWith, openBlock, indent_walk]
  rfl

/-- A draft is **extended by texts**: what was written stays, and each of the texts lies in an
entry. -/
structure Extends (d : Draft) (vs : List Text) (d' : Draft) : Prop where
  /-- The entries stay. -/
  kept : ∀ e ∈ d.entries, e ∈ d'.entries
  /-- The texts lie in entries. -/
  holds : ∀ v ∈ vs, ∃ e ∈ d'.entries, e.Holds v

theorem Extends.refl (d : Draft) : d.Extends [] d := ⟨fun _ h => h, by simp⟩

theorem Extends.trans (h : d.Extends vs d') (h' : d'.Extends us d'') :
    d.Extends (vs ++ us) d'' where
  kept := fun e he => h'.kept e (h.kept e he)
  holds := by
    intro v hv
    rcases List.mem_append.1 hv with hv | hv
    · obtain ⟨e, he, hholds⟩ := h.holds v hv
      exact ⟨e, h'.kept e he, hholds⟩
    · exact h'.holds v hv

/-- An entry extends a draft by the texts that it holds, whatever blocks it leaves open. -/
theorem extends_writeWith (d : Draft) (stack : BlockStack) (h : ∀ v ∈ vs, e.Holds v) :
    d.Extends vs (d.writeWith e stack) where
  kept := fun _ he => List.mem_append_left _ he
  holds := fun v hv => ⟨e, List.mem_append_right _ (List.mem_singleton_self e), h v hv⟩

end Draft

/-! ## Fragments -/

/-- The text of a plain fragment. -/
def Fragment.plain? : Fragment → Option Text
  | .plain v => some v
  | _ => none

theorem Fragment.filterMap_plain?_cons (f : Fragment) (fs : List Fragment) :
    (f :: fs).filterMap plain? = f.plain?.toList ++ fs.filterMap plain? := by
  cases f <;> rfl

/-- What a text says is not blank unless the text is. -/
theorem Header.not_allBlank_spoken (hv : allBlank v = false) : allBlank (spoken v) = false := by
  cases hread : read v with
  | none =>
    rw [spoken_of_read_none hread, allBlank_congr (visible_trim v), hv]
  | some h =>
    obtain ⟨t, ht⟩ := h.brace_suffix_write
    rw [spoken_of_read hread, ← ht, allBlank_append]
    exact Bool.and_eq_false_iff.2 (.inr (by decide))

namespace Draft

open Walk Fragment

variable {d : Draft} {f : Fragment} {fs : List Fragment}

/-- What a settled fragment says holds its text, if it is plain. -/
theorem infix_spoken (h : Settled (f :: fs))
    (hkey : isOpener f.value = true ∨ isChain f.value = true) (hv : f.plain? = some v) :
    v <:+: Header.spoken f.value := by
  cases f with
  | plain u =>
    obtain rfl : u = v := Option.some.inj hv
    rw [value, (Header.read_and_spoken_of_plain h hkey).2]
  | header u => simp [plain?] at hv
  | close => simp [plain?] at hv

/-- **One fragment is placed alike at every indent.** -/
theorem exists_place (h : Settled (f :: fs)) (d : Draft) :
    ∃ d' : Draft, (∀ s, ((d.walk s).place f.value).value = d'.walk s) ∧
      d.Extends f.plain?.toList d' := by
  by_cases hopener : isOpener f.value = true
  · have hspoken := Header.not_allBlank_spoken h.not_allBlank
    refine ⟨d.writeWith ((Entry.line _ hspoken).deeper d.indent)
      (d.stack.push ⟨f.value, d.indent⟩), fun s => ?_, d.extends_writeWith _ fun v hv => ?_⟩
    · rw [value_place h, if_pos hopener, ← openBlock_walk, Entry.text_deeper, Entry.text_line,
        ← indent_walk]
    · exact (Entry.holds_line _ (infix_spoken h (.inl hopener) (by simpa using hv))).deeper _
  · refine ⟨d.write ((Entry.line _ h.not_allBlank).deeper d.indent), fun s => ?_,
      d.extends_writeWith d.stack fun v hv => ?_⟩
    · rw [value_place h, if_neg hopener, walk_write, Entry.text_deeper, Entry.text_line,
        ← indent_walk]
    · refine (Entry.holds_line _ ?_).deeper _
      cases f with
      | plain u => simp_all [plain?, value]
      | header u => simp [plain?] at hv
      | close => simp [plain?] at hv

/-- A closer shows. -/
theorem not_allBlank_closer (t : Text) : allBlank (.char '}' :: t) = false := by
  rw [allBlank_cons]
  exact Bool.and_eq_false_iff.2 (.inl (by decide))

/-- **A block ends alike at every indent.** -/
theorem exists_endBlock (d : Draft) (b : Block) (stack : BlockStack) :
    ∃ d' : Draft, (∀ s, (d.walk s).endBlock (b.moved s) (stack.map (·.moved s)) = d'.walk s) ∧
      d.Extends [] d' := by
  refine ⟨d.writeWith ((Entry.line _ (not_allBlank_closer [])).deeper b.indent) stack,
    fun s => ?_, d.extends_writeWith stack (by simp)⟩
  rw [walk_writeWith, Entry.text_deeper, Entry.text_line]
  rfl

/-- **A block is continued alike at every indent**, and the continuation holds its text if it is
plain. -/
theorem exists_continueBlock (h : Settled (f :: fs)) (hchain : isChain f.value = true) (d : Draft)
    (b : Block) (stack : BlockStack) :
    ∃ d' : Draft, (∀ s, (d.walk s).continueBlock (b.moved s) (stack.map (·.moved s)) f.value
        (Header.spoken f.value) = d'.walk s) ∧ d.Extends f.plain?.toList d' := by
  have hshows := not_allBlank_closer (.char ' ' :: Header.spoken f.value)
  refine ⟨d.writeWith ((Entry.line _ hshows).deeper b.indent) (⟨f.value, b.indent⟩ :: stack),
    fun s => ?_, d.extends_writeWith _ fun v hv => ?_⟩
  · rw [walk_writeWith, Entry.text_deeper, Entry.text_line, continueBlock, List.append_assoc]
    rfl
  · refine Entry.Holds.deeper (Entry.holds_line _ ?_) _
    refine (infix_spoken h (.inr hchain) (by simpa using hv)).trans ?_
    exact List.IsSuffix.isInfix ⟨[.char '}', .char ' '], rfl⟩

/-- **Fragments are fed alike at every indent.** -/
theorem exists_feed (fs : List Fragment) (hfs : Settled fs) (d : Draft) :
    ∃ d' : Draft, (∀ s, (feed fs (d.walk s)).value = d'.walk s) ∧
      d.Extends (fs.filterMap plain?) d' := by
  match fs with
  | [] => exact ⟨d, fun s => by rw [feed_nil]; rfl, .refl d⟩
  | .close :: fs =>
    cases hstack : d.stack with
    | nil =>
      obtain ⟨d', hfeed, hext⟩ := exists_feed fs hfs.tail d
      refine ⟨d', fun s => ?_, hext⟩
      have hs : (d.walk s).stack = [] := by simp [walk, hstack]
      rw [feed_close_stray hs, Logged.value_bind, hfeed]
    | cons b stack =>
      have hs (s : Text) : (d.walk s).stack = b.moved s :: stack.map (·.moved s) := by
        simp [walk, hstack]
      by_cases hchain : ∃ g rest, fs = g :: rest ∧ isChain g.value = true
      · obtain ⟨g, rest, rfl, hg⟩ := hchain
        obtain ⟨d₁, hstep, hext₁⟩ := exists_continueBlock hfs.tail hg d b stack
        obtain ⟨d', hfeed, hext⟩ := exists_feed rest hfs.tail.tail d₁
        refine ⟨d', fun s => ?_, ?_⟩
        · rw [feed_close_chain (hs s) hg, Logged.value_bind, Header.value_line, List.nil_append,
            hstep, hfeed]
        · rw [filterMap_plain?_cons, filterMap_plain?_cons]
          exact hext₁.trans hext
      · obtain ⟨d₁, hstep, hext₁⟩ := d.exists_endBlock b stack
        obtain ⟨d', hfeed, hext⟩ := exists_feed fs hfs.tail d₁
        refine ⟨d', fun s => ?_, hext₁.trans hext⟩
        rw [feed_close_end (hs s), hstep, hfeed]
        intro g hg
        obtain ⟨rest, rfl⟩ := List.head?_eq_some_iff.1 hg
        exact eq_false_of_ne_true fun h => hchain ⟨g, rest, rfl, h⟩
  | .plain v :: fs | .header v :: fs =>
    obtain ⟨d₁, hplace, hext₁⟩ := exists_place hfs d
    obtain ⟨d', hfeed, hext⟩ := exists_feed fs hfs.tail d₁
    refine ⟨d', fun s => ?_, ?_⟩
    · rw [feed_of_ne Fragment.noConfusion, Logged.value_bind, hplace, hfeed]
    · rw [filterMap_plain?_cons]
      exact hext₁.trans hext

end Draft

/-! ## Nodes -/

/-- What is written as it stands of a text that is laid out by itself: all but the blanks at its
ends, unless it is a header or a lone span. -/
def Text.verbatim (s : Text) : List Text :=
  let content := trim s
  if content.isEmpty || (isOpener content && (Header.read content).isSome) ||
      Interpolation.isSingleSpan content then []
  else [content]

/-- **A text is laid out to one line** at every indent, or to none. -/
theorem Text.exists_layout (s : Text) :
    ∃ e : Option Entry, (∀ indent, (Text.layout s indent).value = Entry.text? e indent) ∧
      ∀ v ∈ Text.verbatim s, ∃ e' ∈ e, e'.Holds v := by
  by_cases hempty : (trim s).isEmpty = true
  · refine ⟨none, fun indent => ?_, ?_⟩
    · rw [Text.layout, if_pos hempty]
      rfl
    · simp [Text.verbatim, hempty]
  have hshows : allBlank (trim s) = false := by
    rw [allBlank_congr (visible_trim s), ← Bool.not_eq_true, ← trim_eq_nil_iff]
    simpa using hempty
  by_cases hopener : isOpener (trim s) = true
  · have hspoken := Header.not_allBlank_spoken hshows
    refine ⟨some (.line _ hspoken), fun indent => ?_, fun v hv => ?_⟩
    · rw [Text.layout, if_neg hempty, if_pos hopener, Header.value_line]
      exact (Entry.text_line _ hspoken indent).symm
    · refine ⟨_, rfl, Entry.holds_line _ ?_⟩
      cases hread : Header.read (trim s) with
      | none =>
        rw [Text.verbatim] at hv
        split at hv
        · simp at hv
        · have htrim : trim (trim s) = trim s :=
            trim_eq_self (startsBlank_trim s) (endsBlank_trim s)
          rw [List.mem_singleton.1 hv, Header.spoken_of_read_none hread, htrim]
      | some h => simp [Text.verbatim, hopener, hread] at hv
  by_cases hspan : Interpolation.isSingleSpan (trim s) = true
  · have hnormal : allBlank (Interpolation.normalize (trim s)) = false := by
      rw [allBlank_congr (Piece.visible_normalize _), hshows]
    refine ⟨some (.line _ hnormal), fun indent => ?_, ?_⟩
    · rw [Text.layout, if_neg hempty, if_neg hopener, if_pos hspan]
      exact (Entry.text_line _ hnormal indent).symm
    · simp [Text.verbatim, hspan]
  · refine ⟨some (.line _ hshows), fun indent => ?_, fun v hv => ?_⟩
    · rw [Text.layout, if_neg hempty, if_neg hopener, if_neg hspan]
      exact (Entry.text_line _ hshows indent).symm
    · refine ⟨_, rfl, Entry.holds_line _ ?_⟩
      rw [Text.verbatim] at hv
      split at hv
      · simp at hv
      · rw [List.mem_singleton.1 hv]

namespace Node

open Walk

mutual

/-- **What a tree has written as it stands**, in document order: its attributes, its comments, and
the runs of plain text in its text nodes. Nothing in an element without a name is written. -/
def verbatim : Node → List Text
  | .element name attrs children =>
    if name.isEmpty then [] else attrs.map Attribute.write ++ verbatimAll children
  | .text value => Text.verbatim (value.getD [])
  | .comment value => ["<!--".toText ++ value ++ "-->".toText]
  | .document _ children => verbatimAll children
  | .foreign _ => []

/-- What a sequence of nodes has written as it stands. -/
def verbatimAll : List Node → List Text
  | [] => []
  | n :: ns =>
    (match n.text? with
      | some value => (Fragment.segment value).filterMap Fragment.plain?
      | none => verbatim n) ++ verbatimAll ns

end

mutual

/-- Whether some document of a tree **has a declaration**. An empty one is none. -/
def declares : Node → Bool
  | .element _ _ children => declaresAll children
  | .document doctype children => !(doctype.getD []).isEmpty || declaresAll children
  | _ => false

/-- Whether some document of a sequence has a declaration. -/
def declaresAll : List Node → Bool
  | [] => false
  | n :: ns => declares n || declaresAll ns

end

variable {n : Node} {ns : List Node} {limit depth : Nat}

theorem verbatimAll_of_text {value : Text} (h : n.text? = some value) (ns : List Node) :
    verbatimAll (n :: ns) =
      (Fragment.segment value).filterMap Fragment.plain? ++ verbatimAll ns := by
  rw [verbatimAll, h]

theorem verbatimAll_of_none (h : n.text? = none) (ns : List Node) :
    verbatimAll (n :: ns) = n.verbatim ++ verbatimAll ns := by
  rw [verbatimAll, h]

/-- Children without content have nothing to be written. -/
theorem verbatimAll_of_not_hasContent (h : hasContent ns = false) : verbatimAll ns = [] := by
  induction ns with
  | nil => rfl
  | cons n ns ih =>
    rw [hasContent, List.any_cons, Bool.or_eq_false_iff] at h
    obtain ⟨hn, hns⟩ := h
    rw [isContent] at hn
    split at hn
    · next value hvalue =>
      have hblank : Fragment.segment value = [] := Fragment.segment_of_allBlank (by simpa using hn)
      rw [verbatimAll_of_text hvalue, hblank, ih hns]
      rfl
    · exact absurd hn.symm Bool.false_ne_true

/-- A node is **drawn as an entry**, or as nothing, at every indent. -/
structure DrawnAs (limit : Nat) (n : Node) (depth : Nat) (e : Option Entry) : Prop where
  /-- The entry at an indent is what the node is rendered to. -/
  value : ∀ s, (render limit n s depth).run.value = .ok (Entry.text? e s)
  /-- The entry holds what is written as it stands. -/
  holds : ∀ v ∈ n.verbatim, ∃ e' ∈ e, e'.Holds v

/-- Writing what a node is drawn as extends a draft by what the node has written as it stands. -/
theorem DrawnAs.exists_emit {e : Option Entry} (h : DrawnAs limit n depth e) (d : Draft) :
    ∃ d' : Draft, (∀ s, (d.walk s).emit (Entry.text? e (s ++ d.indent)) = d'.walk s) ∧
      d.Extends n.verbatim d' := by
  cases e with
  | none =>
    refine ⟨d, fun s => rfl, fun _ he => he, fun v hv => ?_⟩
    obtain ⟨e', he', -⟩ := h.holds v hv
    simp at he'
  | some e =>
    refine ⟨d.write (e.deeper d.indent), fun s => ?_, d.extends_writeWith d.stack fun v hv => ?_⟩
    · rw [← Draft.emit_walk, Entry.text_deeper]
      rfl
    · obtain ⟨e', he', hholds⟩ := h.holds v hv
      rw [← Option.some.inj he'] at hholds
      exact hholds.deeper _

/-- The lines of a finished draft. -/
theorem value_finish_walk (d : Draft) (s : Text) :
    (liftM (d.walk s).finish : Rendering (List Text)).run.value =
      .ok (d.entries.map (·.text s)) :=
  congrArg Except.ok (value_finish (d.walk s))

/-- A document without a declaration is the lines of its children. -/
theorem value_render_document {doctype : Option Text} {w : Walk} {s : Text}
    (hdoctype : doctype.getD [] = []) (h : (walk limit ns (.start s) depth).run.value = .ok w) :
    (render limit (.document doctype ns) s depth).run.value = .ok (joinLines w.lines) := by
  have hfinish : (liftM w.finish : Rendering (List Text)).run.value = .ok w.lines :=
    congrArg Except.ok (value_finish w)
  rw [render, Logged.value_bind_of_ok h, Logged.value_bind_of_ok hfinish, Logged.value_liftM_bind]
  match doctype with
  | none => rfl
  | some [] => rfl
  | some (c :: declaration) => simp at hdoctype

mutual

/-- **A node that has no error is drawn as one entry at every indent.** -/
theorem exists_entry {depth : Nat} (n : Node) (hn : n.declares = false)
    (h : firstError? limit (n.visits depth) = none) : ∃ e, DrawnAs limit n depth e := by
  match n with
  | .element name attrs children =>
    rw [firstError?_element] at h
    have hdepth : ¬ limit < depth := by
      intro hdepth
      simp [hdepth] at h
    rw [if_neg hdepth] at h
    by_cases hname : name.isEmpty = true
    · refine ⟨none, fun s => ?_, ?_⟩
      · rw [render, if_neg hdepth, if_pos hname]
        rfl
      · simp [verbatim, hname]
    rw [if_neg hname] at h
    by_cases hcontent : hasContent children = true
    · obtain ⟨d, hwalk, hext⟩ := exists_draft children hn h (.start indentUnit)
      obtain ⟨e, htext, hattrs, hentries⟩ := Tag.exists_around name attrs d.entries
      refine ⟨some e, fun s => ?_, fun v hv => ⟨e, rfl, ?_⟩⟩
      · rw [render, if_neg hdepth, if_neg hname, if_pos hcontent,
          ← Draft.walk_start, Logged.value_bind_of_ok (hwalk s),
          Logged.value_bind_of_ok (value_finish_walk d s)]
        exact congrArg Except.ok (htext s)
      · rw [verbatim, if_neg hname] at hv
        rcases List.mem_append.1 hv with hv | hv
        · obtain ⟨a, ha, rfl⟩ := List.mem_map.1 hv
          exact hattrs a ha
        · obtain ⟨e', he', hholds⟩ := hext.holds v hv
          exact hentries e' he' v hholds
    · obtain ⟨e, htext, hattrs⟩ := Tag.exists_empty name attrs
      refine ⟨some e, fun s => ?_, fun v hv => ⟨e, rfl, ?_⟩⟩
      · rw [render, if_neg hdepth, if_neg hname, if_neg hcontent]
        exact congrArg Except.ok (htext s)
      · rw [verbatim, if_neg hname,
          verbatimAll_of_not_hasContent (eq_false_of_ne_true hcontent), List.append_nil] at hv
        obtain ⟨a, ha, rfl⟩ := List.mem_map.1 hv
        exact hattrs a ha
  | .text value =>
    obtain ⟨e, htext, hholds⟩ := Text.exists_layout (value.getD [])
    exact ⟨e, fun s => congrArg Except.ok (htext s), hholds⟩
  | .comment value =>
    have hshows : allBlank ("<!--".toText ++ value ++ "-->".toText) = false :=
      Tag.not_allBlank_tag _
    refine ⟨some (.line _ hshows), fun s => ?_, fun v hv => ⟨_, rfl, Entry.holds_line hshows ?_⟩⟩
    · rw [render, Entry.text?, Option.map_some, Option.getD_some, Entry.text_line,
        List.append_assoc, List.append_assoc, List.append_assoc]
      rfl
    · rw [List.mem_singleton.1 hv]
  | .document doctype children =>
    rw [firstError?_document] at h
    rw [declares, Bool.or_eq_false_iff] at hn
    obtain ⟨d, hwalk, hext⟩ := exists_draft children hn.2 h (.start [])
    have hdoctype : doctype.getD [] = [] := by simpa using hn.1
    have hvalue (s : Text) : (render limit (.document doctype children) s depth).run.value =
        .ok (joinLines (d.entries.map (·.text s))) := by
      have hs := hwalk s
      rw [Draft.walk_start, List.append_nil] at hs
      rw [value_render_document hdoctype hs, Draft.walk]
    by_cases hentries : d.entries = []
    · refine ⟨none, fun s => ?_, fun v hv => ?_⟩
      · rw [hvalue, hentries]
        rfl
      · obtain ⟨e, he, -⟩ := hext.holds v hv
        simp [hentries] at he
    · obtain ⟨e, htext, hholds⟩ := Entry.exists_join hentries
      refine ⟨some e, fun s => ?_, fun v hv => ⟨e, rfl, ?_⟩⟩
      · rw [hvalue, htext]
        rfl
      · obtain ⟨e', he', hv⟩ := hext.holds v hv
        exact hholds e' he' v hv
  | .foreign kind => simp [visits, firstError?, Visit.error?] at h

/-- **A sequence of nodes that has no error is walked alike at every indent.** -/
theorem exists_draft {depth : Nat} (ns : List Node) (hns : declaresAll ns = false)
    (h : firstError? limit (visitsAll ns depth) = none) (d : Draft) :
    ∃ d' : Draft, (∀ s, (walk limit ns (d.walk s) depth).run.value = .ok (d'.walk s)) ∧
      d.Extends (verbatimAll ns) d' := by
  match ns with
  | [] => exact ⟨d, fun s => by rw [walk]; rfl, .refl d⟩
  | n :: ns =>
    rw [firstError?_cons, Option.or_eq_none_iff] at h
    rw [declaresAll, Bool.or_eq_false_iff] at hns
    cases hn : n.text? with
    | some value =>
      obtain ⟨d₁, hfeed, hext₁⟩ := d.exists_feed _ (Fragment.settled_segment value)
      obtain ⟨d', hwalk, hext⟩ := exists_draft ns hns.2 h.2 d₁
      refine ⟨d', fun s => ?_, ?_⟩
      · rw [← resume_nil, resume_text hn, resume, Logged.value_liftM_bind, hfeed, hwalk]
      · rw [verbatimAll_of_text hn]
        exact hext₁.trans hext
    | none =>
      obtain ⟨e, hdrawn⟩ := exists_entry n hns.1 h.1
      obtain ⟨d₁, hemit, hext₁⟩ := hdrawn.exists_emit d
      obtain ⟨d', hwalk, hext⟩ := exists_draft ns hns.2 h.2 d₁
      refine ⟨d', fun s => ?_, ?_⟩
      · rw [← resume_nil, resume_node hn, Logged.value_bind_of_ok (hdrawn.value _), resume_nil,
          Draft.indent_walk, hemit, hwalk]
      · rw [verbatimAll_of_none hn]
        exact hext₁.trans hext

end

/-- **A tree is formatted to the same lines at every indent.** Where no document of a tree has a
declaration and a limit is given, formatting fails with one error at every indent, or there are
lines such that the result at every indent is these lines with the indent before each. A comment, an
attribute or a run of plain text lies inside one of the lines, so nothing is put inside it. -/
theorem format_at_indent (n : Node) (limit : Nat) (h : n.declares = false) :
    (∃ e, ∀ (o : Options) (indent : Option Text), o.maxDepth = limit →
        (n.format o indent).run.value = .error e) ∨
      ∃ lines : List Text,
        (∀ (o : Options) (indent : Option Text), o.maxDepth = limit →
          (n.format o indent).run.value =
            .ok (joinLines (lines.map (indent.getD o.baseIndent ++ ·)))) ∧
        ∀ v ∈ n.verbatim, ∃ line ∈ lines, v <:+: line := by
  cases herror : firstError? limit (n.visits 0) with
  | some e =>
    refine .inl ⟨.layout e, ?_⟩
    rintro o indent rfl
    rw [← Logged.failure?_eq_some_iff, failure?_format, herror]
    rfl
  | none =>
    obtain ⟨e, hdrawn⟩ := exists_entry n h herror
    refine .inr ⟨(e.map Entry.lines).getD [], ?_, fun v hv => ?_⟩
    · rintro o indent rfl
      rw [format, Logged.value_adapt_eq_ok_iff, hdrawn.value]
      cases e with
      | none => rfl
      | some e => rfl
    · obtain ⟨e', he', line, hline, hv⟩ := hdrawn.holds v hv
      refine ⟨line, ?_, hv⟩
      rw [Option.mem_def.1 he']
      exact hline

/-- A comment over two lines, in a block, in an element with two attributes. -/
theorem format_at_indent_comment :
    ∃ lines : List Text,
      (∀ s : Text, ((Node.element "p".toText [⟨"a".toText, none⟩, ⟨"b".toText, some "1\n2".toText⟩]
          [.text (some "@if(c)\x7b".toText), .comment "x\ny".toText]).format .default
            (some s)).run.value = .ok (joinLines (lines.map (s ++ ·)))) ∧
      ∃ line ∈ lines, "<!--x\ny-->".toText <:+: line := by
  rcases format_at_indent (.element "p".toText
      [⟨"a".toText, none⟩, ⟨"b".toText, some "1\n2".toText⟩]
      [.text (some "@if(c)\x7b".toText), .comment "x\ny".toText]) 200 rfl with
    ⟨e, herror⟩ | ⟨lines, hlines, hholds⟩
  · have hfails := Logged.failure?_eq_some_iff.2 (herror .default none rfl)
    rw [failure?_format] at hfails
    exact nomatch (hfails : (none : Option FormatError) = some e)
  · exact ⟨lines, fun s => hlines .default (some s) rfl, hholds _ (by decide +kernel)⟩

end Node

end TemplateLayout
