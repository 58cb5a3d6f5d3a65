import TemplateLayout.Block
import TemplateLayout.Fragment
import TemplateLayout.Header

/-! # Walking a sequence
The state of laying out one sequence of nodes: the blocks that are open and the lines written so
far. Fragments of text move it from state to state. A header opens a block, a closer ends the
innermost one, and a chain continuation that follows a closer in the same text shares its line.

* `Walk` — the state;
* `Walk.emit`, `Walk.openBlock`, `Walk.endBlock`, `Walk.continueBlock` — its moves;
* `Text.layout` — one fragment of text as a line;
* `Walk.feed` — the fragments of one text node, in order;
* `Walk.finish` — the lines, with a note where blocks are left open.
-/

namespace TemplateLayout

/-- One text as a line: a header where it opens a block, else the trimmed text with a lone span in
normal form. Blank text gives nothing. -/
def Text.layout (s indent : Text) : Logged Text :=
  let content := Text.trim s
  if content.isEmpty then pure []
  else if Directive.isOpener content then Header.line content indent
  else if Interpolation.isSingleSpan content then pure (Interpolation.line content indent)
  else pure (indent ++ content)

/-- The **state of a walk** along one sequence of nodes. -/
structure Walk where
  /-- The indent of the sequence outside all blocks. -/
  base : Text
  /-- The open blocks. -/
  stack : BlockStack
  /-- The entries written so far; one may hold several lines. -/
  lines : List Text
  deriving DecidableEq, Repr

namespace Walk

/-- The start of a sequence: no block is open and nothing is written. -/
def start (base : Text) : Walk := ⟨base, [], []⟩

/-- The indent of what comes next. -/
def indent (w : Walk) : Text := w.stack.indent w.base

/-- Writes a line. -/
def write (w : Walk) (line : Text) : Walk := { w with lines := w.lines ++ [line] }

/-- Writes a line unless it is blank. -/
def emit (w : Walk) (line : Text) : Walk := if Text.allBlank line then w else w.write line

/-- Writes the line of a header and opens its block at the present indent. -/
def openBlock (w : Walk) (directive line : Text) : Walk :=
  { w.write line with stack := w.stack.push ⟨directive, w.indent⟩ }

/-- Ends the block `b`, which leaves the blocks of `stack` open, by a closer at its indent. -/
def endBlock (w : Walk) (b : Block) (stack : BlockStack) : Walk :=
  { w.write (b.indent ++ [.char '}']) with stack := stack }

/-- Ends the block `b` and opens its continuation at the same indent and on the same line. -/
def continueBlock (w : Walk) (b : Block) (stack : BlockStack) (directive header : Text) : Walk :=
  { w.write (b.indent ++ [.char '}', .char ' '] ++ header) with
    stack := stack.push ⟨directive, b.indent⟩ }

/-- A fragment other than a closer: it opens a block, or it is a line. -/
def place (w : Walk) (value : Text) : Logged Walk :=
  if Directive.isOpener value then w.openBlock value <$> Header.line value w.indent
  else w.emit <$> Text.layout value w.indent

/-- **The fragments of one text node**, in order. A closer with no open block is dropped and noted;
a closer looks at the fragment after it, and takes it along where it is a chain continuation. -/
def feed : List Fragment → Walk → Logged Walk
  | [], w => pure w
  | .close :: fs, w =>
    match w.stack with
    | [] => do
      Logged.note .strayCloser
      feed fs w
    | b :: stack =>
      match fs with
      | [] => pure (w.endBlock b stack)
      | f :: rest =>
        if Directive.isChain f.value then do
          let header ← Header.line f.value []
          feed rest (w.continueBlock b stack f.value header)
        else feed (f :: rest) (w.endBlock b stack)
  | f :: fs, w => do
    let w' ← w.place f.value
    feed fs w'

/-- The **lines** of a finished walk. Blocks left open stay unclosed, and that is noted. -/
def finish (w : Walk) : Logged (List Text) :=
  if w.stack.isEmpty then pure w.lines
  else do
    Logged.note (.blocksLeftOpen w.stack.length)
    pure w.lines

@[simp] theorem stack_start (base : Text) : (start base).stack = [] := rfl

@[simp] theorem lines_start (base : Text) : (start base).lines = [] := rfl

@[simp] theorem lines_write (w : Walk) (line : Text) : (w.write line).lines = w.lines ++ [line] :=
  rfl

@[simp] theorem stack_write (w : Walk) (line : Text) : (w.write line).stack = w.stack := rfl

/-- Writing a line, blank or not, opens and closes no block. -/
@[simp] theorem stack_emit (w : Walk) (line : Text) : (w.emit line).stack = w.stack := by
  unfold emit
  split <;> rfl

/-- The lines of a finished walk are those that it wrote. -/
@[simp] theorem value_finish (w : Walk) : w.finish.value = w.lines := by
  unfold finish
  split <;> rfl

end Walk

end TemplateLayout
