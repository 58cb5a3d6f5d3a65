import TemplateLayout.Alignment.Runs
import TemplateLayout.Text.Numeral

/-! # Unified diffs
The runs that two texts have in common give the changes between them, and the changes with three
lines of context make the hunks of a unified diff.

* `Edit` — a stretch that stays or changes;
* `Alignment.edits` — the edits from one sequence to another;
* `Alignment.hunks` — edits in groups with a little context;
* `Alignment.unified` — the lines of a unified diff.
-/

namespace TemplateLayout

/-- What becomes of a stretch of lines. -/
inductive EditKind where
  /-- It stays. -/
  | keep
  /-- It changes: lines go, or lines come, or both. -/
  | change
  deriving DecidableEq, Repr

/-- An **edit**: the lines from `left` to `leftEnd` become those from `right` to `rightEnd`. -/
structure Edit where
  /-- Whether the lines stay. -/
  kind : EditKind
  /-- The first line on the left. -/
  left : Nat
  /-- The line after the last on the left. -/
  leftEnd : Nat
  /-- The first line on the right. -/
  right : Nat
  /-- The line after the last on the right. -/
  rightEnd : Nat
  deriving DecidableEq, Repr

namespace Edit

/-- The last `n` lines of an edit. -/
def lastLines (n : Nat) (e : Edit) : Edit :=
  { e with left := max e.left (e.leftEnd - n), right := max e.right (e.rightEnd - n) }

/-- The first `n` lines of an edit. -/
def firstLines (n : Nat) (e : Edit) : Edit :=
  { e with leftEnd := min e.leftEnd (e.left + n), rightEnd := min e.rightEnd (e.right + n) }

end Edit

namespace Alignment

/-! ## Edits -/

/-- The change between two places, if there is anything between them. -/
def gap (i leftEnd j rightEnd : Nat) : List Edit :=
  if i < leftEnd || j < rightEnd then [⟨.change, i, leftEnd, j, rightEnd⟩] else []

/-- The edits from `i` and `j` on, where the given runs stay and the sequences end at `n` and
`m`. -/
def editsFrom (n m : Nat) : Nat → Nat → List Run → List Edit
  | i, j, [] => gap i n j m
  | i, j, r :: rs =>
    gap i r.left j r.right ++ ⟨.keep, r.left, r.left + r.size, r.right, r.right + r.size⟩ ::
      editsFrom n m (r.left + r.size) (r.right + r.size) rs

/-- The **edits** that lead from one sequence to another. -/
def edits {α : Type} [DecidableEq α] (left right : List α) : List Edit :=
  editsFrom left.length right.length 0 0 (runs left right)

/-! ## Hunks -/

/-- A leading stretch that stays, cut to its last `n` lines. -/
def trimFirst (n : Nat) : List Edit → List Edit
  | [] => []
  | e :: es => (if e.kind = .keep then e.lastLines n else e) :: es

/-- A closing stretch that stays, cut to its first `n` lines. -/
def trimLast (n : Nat) : List Edit → List Edit
  | [] => []
  | [e] => [if e.kind = .keep then e.firstLines n else e]
  | e :: es => e :: trimLast n es

/-- The first group of edits and the groups after it: a stretch of more than `2 n` lines that stays
ends a group with its first `n` lines and begins the next with its last `n`. -/
def splitGroups (n : Nat) : List Edit → List Edit × List (List Edit)
  | [] => ([], [])
  | e :: es =>
    let (group, groups) := splitGroups n es
    if e.kind = .keep && 2 * n < e.leftEnd - e.left then
      ([e.firstLines n], (e.lastLines n :: group) :: groups)
    else (e :: group, groups)

/-- The **hunks** of some edits: their groups with at most `n` lines of context, those that hold no
change left out. -/
def hunks (n : Nat) (es : List Edit) : List (List Edit) :=
  let (group, groups) := splitGroups n (trimLast n (trimFirst n es))
  (group :: groups).filter fun g => g.any fun e => e.kind = .change

/-! ## Unified format -/

/-- The lines from `first` up to `last`, as the head of a hunk gives them. -/
def rangeText (first last : Nat) : Text :=
  let size := last - first
  if size = 1 then Text.ofNat (first + 1)
  else Text.ofNat (if size = 0 then first else first + 1) ++ .char ',' :: Text.ofNat size

/-- The lines of an edit, each with its marker: a space, a minus or a plus. -/
def editLines (left right : List Text) (e : Edit) : List Text :=
  let gone := (left.take e.leftEnd).drop e.left
  let come := (right.take e.rightEnd).drop e.right
  match e.kind with
  | .keep => gone.map (.char ' ' :: ·)
  | .change => gone.map (.char '-' :: ·) ++ come.map (.char '+' :: ·)

/-- The lines of a hunk under its head. -/
def hunkLines (left right : List Text) (hunk : List Edit) : List Text :=
  match hunk.head?, hunk.getLast? with
  | some first, some last =>
    ("@@ -".toText ++ rangeText first.left last.leftEnd ++ " +".toText ++
        rangeText first.right last.rightEnd ++ " @@".toText) ::
      hunk.flatMap (editLines left right)
  | _, _ => []

/-- **The lines of a unified diff** with three lines of context; equal sequences give none. -/
def unified (left right : List Text) (leftName rightName : Text) : List Text :=
  match hunks 3 (edits left right) with
  | [] => []
  | hs =>
    ("--- ".toText ++ leftName) :: ("+++ ".toText ++ rightName) ::
      hs.flatMap (hunkLines left right)

end Alignment

end TemplateLayout
