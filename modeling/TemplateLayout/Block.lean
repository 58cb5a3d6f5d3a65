import TemplateLayout.Text.Basic

/-! # Blocks
Control-flow blocks have no node of their own: they open and close inside text. While a sequence of
nodes is laid out, the blocks that are open form a stack, and the innermost decides the indent.

* `Block` — an open block;
* `BlockStack` — the open blocks, the innermost first;
* `BlockStack.indent` — the indent of what comes next.
-/

namespace TemplateLayout

/-- An **open block**: the header that opened it, and the indent of that header. -/
structure Block where
  /-- The text of the header. -/
  directive : Text
  /-- The indent of the header and of the closer. -/
  indent : Text
  deriving DecidableEq, Repr

/-- The indent of a block's body, one unit deeper than its header. -/
def Block.contentIndent (b : Block) : Text := b.indent ++ Text.indentUnit

/-- The **stack of open blocks** of one sequence of nodes, the innermost first. -/
abbrev BlockStack : Type := List Block

namespace BlockStack

/-- Opens a block inside the others. -/
def push (stack : BlockStack) (b : Block) : BlockStack := b :: stack

/-- The innermost block and the stack without it. -/
def pop? : BlockStack → Option (Block × BlockStack)
  | [] => none
  | b :: stack => some (b, stack)

/-- The innermost block. -/
def top? (stack : BlockStack) : Option Block := stack.head?

/-- The **indent of what comes next**: that of the innermost body, or the base outside all
blocks. -/
def indent (stack : BlockStack) (base : Text) : Text :=
  match stack.top? with
  | some b => b.contentIndent
  | none => base

@[simp] theorem pop?_push (stack : BlockStack) (b : Block) :
    (stack.push b).pop? = some (b, stack) := rfl

@[simp] theorem top?_push (stack : BlockStack) (b : Block) : (stack.push b).top? = some b := rfl

@[simp] theorem indent_nil (base : Text) : indent [] base = base := rfl

@[simp] theorem indent_push (stack : BlockStack) (b : Block) (base : Text) :
    (stack.push b).indent base = b.contentIndent := rfl

end BlockStack

end TemplateLayout
