import TemplateLayout.Layout.Tag
import TemplateLayout.Layout.Walk

/-! # Rendering a tree
A node becomes text at an indent. A sequence of nodes is one walk: its text nodes feed fragments,
and every other node is rendered at the indent of the walk and written as one entry.

Rendering fails for two reasons only, both of them structural: a node that is no markup, and an
element below more than `limit` others.

* `LayoutError` — the two reasons;
* `Node.render` — a node as text;
* `Node.walk` — a sequence of nodes as a walk;
* `Node.renderSequence` — a sequence of nodes as lines.
-/

namespace TemplateLayout

/-- Why a tree cannot be rendered. -/
inductive LayoutError where
  /-- A value that is no markup stands in the tree. -/
  | unprintable (kind : Text)
  /-- An element stands below `depth` others, more than `limit`. -/
  | tooDeep (depth limit : Nat) (element : Text)
  deriving DecidableEq, Repr

/-- A rendering notes events and may fail. -/
abbrev Rendering : Type → Type := ExceptT LayoutError Logged

namespace Node

mutual

/-- **A node as text** at an indent, below `depth` elements. An element without a name gives
nothing; a declaration stands before a document without any indent. The recursion goes as deep as
the tree does; a limit on the stack, which a host program may have, is left out. -/
def render (limit : Nat) : Node → Text → Nat → Rendering Text
  | .element name attrs children, indent, depth =>
    if limit < depth then throw (.tooDeep depth limit name)
    else if name.isEmpty then pure []
    else if hasContent children then do
      let w ← walk limit children (Walk.start (indent ++ Text.indentUnit)) (depth + 1)
      let lines ← (w.finish : Logged _)
      pure (Tag.around name attrs indent lines)
    else pure (Tag.empty name attrs indent)
  | .text value, indent, _ => (Text.layout (value.getD []) indent : Logged _)
  | .comment value, indent, _ => pure (indent ++ "<!--".toText ++ value ++ "-->".toText)
  | .document doctype children, indent, depth => do
    let w ← walk limit children (Walk.start indent) depth
    let lines ← (w.finish : Logged _)
    (Logged.note (.documentLaidOut children.length lines.length) : Logged _)
    match doctype with
    | none | some [] => pure (Text.joinLines lines)
    | some declaration => pure (declaration ++ .char '\n' :: Text.joinLines lines)
  | .foreign kind, _, _ => throw (.unprintable kind.name)

/-- **A sequence of nodes** below `depth` elements, walked from a given state. -/
def walk (limit : Nat) : List Node → Walk → Nat → Rendering Walk
  | [], w, _ => pure w
  | n :: ns, w, depth => do
    let w' ←
      match n.text? with
      | some value => (w.feed (Fragment.segment value) : Logged _)
      | none => w.emit <$> render limit n w.indent depth
    walk limit ns w' depth

end

/-- A sequence of nodes as **lines** at a base indent, with a block stack of its own. -/
def renderSequence (limit : Nat) (nodes : List Node) (base : Text) (depth : Nat) :
    Rendering (List Text) := do
  let w ← walk limit nodes (Walk.start base) depth
  (w.finish : Logged _)

end Node

end TemplateLayout
