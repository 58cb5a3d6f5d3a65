import TemplateLayout.Text.CodePoint

/-! # Text
Templates are handled as sequences of code points, so that a scanner is a recursion on a list and a
law about it is an induction on that list.

* `Text` — the type, an abbreviation for `List CodePoint`;
* `Text.ofChars`, `String.toText` — the texts that characters spell;
* `Text.chars` — the characters of a text;
* `Text.run_append_inj` — a run of one class is determined by where it ends;
* `Text.joinLines` — lines put together with line feeds;
* `Text.occursIn` — whether one text stands inside another;
* `Text.indentUnit` — the fixed unit of nesting, two spaces.
-/

namespace TemplateLayout

/-- A **text** is a sequence of code points. -/
abbrev Text : Type := List CodePoint

namespace Text

/-- The text that some characters spell. -/
def ofChars (cs : List Char) : Text := cs.map .char

/-- The characters of a text, in order; surrogates are left out. -/
def chars (s : Text) : List Char := s.filterMap CodePoint.char?

/-- A text that characters spell has those characters. -/
@[simp] theorem chars_ofChars (cs : List Char) : chars (ofChars cs) = cs := by
  induction cs with
  | nil => rfl
  | cons c cs ih => exact congrArg (c :: ·) ih

/-- **A run ends where its class ends**: two texts of one class are the same, and so is what follows
them, if neither goes on with a code point of that class. -/
theorem run_append_inj {p : CodePoint → Bool} {n m x y : Text} (hn : ∀ c ∈ n, p c = true)
    (hm : ∀ c ∈ m, p c = true) (hx : x.head?.all (!p ·) = true) (hy : y.head?.all (!p ·) = true)
    (h : n ++ x = m ++ y) : n = m ∧ x = y := by
  rcases List.append_eq_append_iff.1 h with ⟨c, rfl, rfl⟩ | ⟨c, rfl, rfl⟩
  · cases c with
    | nil => simp
    | cons d c => simp [hm d (List.mem_append_right n List.mem_cons_self)] at hx
  · cases c with
    | nil => simp
    | cons d c => simp [hn d (List.mem_append_right m List.mem_cons_self)] at hy

end Text

end TemplateLayout

/-- The text that a string spells. -/
def String.toText (s : String) : TemplateLayout.Text := TemplateLayout.Text.ofChars s.toList

namespace TemplateLayout.Text

/-- The text of some lines: a line feed stands between each two of them and none after the last. -/
def joinLines (lines : List Text) : Text := [.char '\n'].intercalate lines

@[simp] theorem joinLines_nil : joinLines [] = [] := rfl

@[simp] theorem joinLines_singleton (l : Text) : joinLines [l] = l := by
  simp [joinLines]

@[simp] theorem joinLines_cons_cons (l m : Text) (ls : List Text) :
    joinLines (l :: m :: ls) = l ++ .char '\n' :: joinLines (m :: ls) := by
  simp [joinLines, List.intercalate]

/-- Each line below the first stands behind a line feed. -/
theorem joinLines_cons (l : Text) (ls : List Text) :
    joinLines (l :: ls) = l ++ ls.flatMap (.char '\n' :: ·) := by
  induction ls generalizing l with
  | nil => rw [joinLines_singleton, List.flatMap_nil, List.append_nil]
  | cons m ls ih => rw [joinLines_cons_cons, ih m, List.flatMap_cons, List.cons_append]

/-- A row of `n` spaces. -/
def spaces (n : Nat) : Text := List.replicate n (.char ' ')

/-- One level of nesting is two spaces wide, whatever the template. -/
def indentUnit : Text := spaces 2

/-- Whether `part` occurs in a text as a run of consecutive code points. -/
def occursIn (part : Text) : Text → Bool
  | [] => part.isEmpty
  | c :: r => part.isPrefixOf (c :: r) || occursIn part r

/-- A text at least `width` wide: spaces are put before it where it is shorter. -/
def alignRight (width : Nat) (s : Text) : Text := spaces (width - s.length) ++ s

end TemplateLayout.Text
