/-! # Common runs of two sequences
Two sequences are aligned by their longest common run, and then by the longest common runs before it
and after it, over and over. Of several longest runs the first counts, on the left and then on the
right. In a long right-hand sequence the entries that occur very often start no run, but a run may
be continued over them.

* `Run` — a run of equal entries;
* `Alignment.longest` — the longest run of two sequences;
* `Alignment.runs` — all runs of the alignment, in order;
* `Alignment.matched` — how many entries are aligned.
-/

namespace TemplateLayout

/-- A **run** of `size` entries that are the same from `left` and from `right` on. -/
structure Run where
  /-- Where it starts on the left. -/
  left : Nat
  /-- Where it starts on the right. -/
  right : Nat
  /-- How many entries it has. -/
  size : Nat
  deriving DecidableEq, Repr

namespace Alignment

variable {α : Type} [DecidableEq α]

/-! ## The longest run -/

/-- Whether an entry may start a run: in two hundred entries or more, one that is more than a
hundredth of them, and one more, may not. -/
def mayStart (entries : List α) (x : α) : Bool :=
  entries.length < 200 || entries.count x ≤ entries.length / 100 + 1

/-- The entries, each with the answer whether it may start a run. -/
def index (entries : List α) : List (α × Bool) := entries.map fun x => (x, mayStart entries x)

/-- For each entry on the right, the length of the run that ends there and at `x`, from the lengths
one entry earlier on the left. -/
def nextRow (x : α) (right : List (α × Bool)) (row : List Nat) : List Nat :=
  List.zipWith (fun (y, starts) n => if x = y && starts then n + 1 else 0) right (0 :: row)

/-- The longer of a run and the longest run of a row; the run stays where none is longer. -/
def longestOfRow (i : Nat) (row : List Nat) (best : Run) : Run :=
  row.zipIdx.foldl
    (fun best (n, j) => if best.size < n then ⟨i + 1 - n, j + 1 - n, n⟩ else best) best

/-- The longest run of entries that may start one. -/
def longestIndexed (left : List α) (right : List (α × Bool)) : Run :=
  (left.zipIdx.foldl
    (fun (row, best) (x, i) =>
      let row' := nextRow x right row
      (row', longestOfRow i row' best))
    (List.replicate right.length 0, ⟨0, 0, 0⟩)).2

/-- How many entries two sequences have in common at their starts. -/
def commonStart : List α → List (α × Bool) → Nat
  | x :: xs, (y, _) :: ys => if x = y then commonStart xs ys + 1 else 0
  | _, _ => 0

/-- The **longest run**, drawn out to both sides over entries that could not start one. -/
def longest (left : List α) (right : List (α × Bool)) : Run :=
  let core := longestIndexed left right
  let before := commonStart (left.take core.left).reverse (right.take core.right).reverse
  let after := commonStart (left.drop (core.left + core.size)) (right.drop (core.right + core.size))
  ⟨core.left - before, core.right - before, before + core.size + after⟩

/-! ## All runs -/

/-- The runs of two parts that start at `i` and `j`: those before the longest run, that run, and
those after it. -/
def runsFrom (left : List α) (right : List (α × Bool)) (i j : Nat) : List Run :=
  let run := longest left right
  if run.left < left.length ∧ 0 < run.size then
    runsFrom (left.take run.left) (right.take run.right) i j ++
      ⟨i + run.left, j + run.right, run.size⟩ ::
        runsFrom (left.drop (run.left + run.size)) (right.drop (run.right + run.size))
          (i + run.left + run.size) (j + run.right + run.size)
  else []
termination_by left.length
decreasing_by
  all_goals
    rename_i h
    have hl : (longest left right).left < left.length := h.1
    have hs : 0 < (longest left right).size := h.2
  · simp only [List.length_take]
    omega
  · simp only [List.length_drop]
    omega

/-- Puts a run before others, as one run with the first where they touch on both sides. -/
def attach (r : Run) : List Run → List Run
  | [] => [r]
  | s :: rest =>
    if r.left + r.size = s.left && r.right + r.size = s.right then
      ⟨r.left, r.right, r.size + s.size⟩ :: rest
    else r :: s :: rest

/-- **The runs of the alignment** of two sequences, in order; no two of them touch. -/
def runs (left right : List α) : List Run := (runsFrom left (index right) 0 0).foldr attach []

/-- How many entries of two sequences are aligned. -/
def matched (left right : List α) : Nat := (runs left right).foldl (fun n r => n + r.size) 0

end Alignment

end TemplateLayout
