import TemplateLayout.Text.Blank

/-! # Markup trees
The tree that a layout starts from: elements with attributes and children, text, comments, and a
document. A host program may also hand over a value that is no markup; the tree keeps its place and
the name of its kind, and laying it out fails.

* `Attribute`, `ForeignKind`, `Node` — the types;
* `Node.isVoid` — the elements that never have children;
* `Node.hasContent` — whether some children show anything.
-/

namespace TemplateLayout

/-- An **attribute** of an element: a name, and a value unless it stands bare. -/
structure Attribute where
  /-- The name, with the brackets of a binding if it has any. -/
  name : Text
  /-- The value between the quotes. -/
  value : Option Text
  deriving DecidableEq, Repr

/-- The names of the kinds of markup. A node is recognised by the name of its kind. -/
def markupKinds : List Text :=
  ["Element".toText, "Text".toText, "Comment".toText, "Root".toText]

/-- The **kind of a value that is no markup**, by its name. A value whose kind has the name of a
kind of markup would be taken for markup and read as such, whatever it holds. Such values are left
out of these trees, and so are values of a kind that extends a kind of markup under a new name. -/
structure ForeignKind where
  /-- The name of the kind. -/
  name : Text
  /-- It is not the name of a kind of markup. -/
  name_notMem : name ∉ markupKinds

/-- A **node** of a markup tree. -/
inductive Node where
  /-- An element with its attributes and children. -/
  | element (name : Text) (attrs : List Attribute) (children : List Node)
  /-- Text between tags, which may hold directives, spans and closers. -/
  | text (value : Option Text)
  /-- A comment, kept as written. -/
  | comment (value : Text)
  /-- A document with the declaration that stands before it, if any. -/
  | document (doctype : Option Text) (children : List Node)
  /-- A value of the host program that is no markup, known by its kind. -/
  | foreign (kind : ForeignKind)

namespace Node

/-- The name of a node's kind, as messages give it. -/
def kind : Node → Text
  | .element .. => "Element".toText
  | .text _ => "Text".toText
  | .comment _ => "Comment".toText
  | .document .. => "Root".toText
  | .foreign k => k.name

/-- The text of a text node, an absent value being empty. Any other node has none. -/
def text? : Node → Option Text
  | .text value => some (value.getD [])
  | _ => none

/-- The names of the void elements. -/
def voidNames : List Text :=
  ["area".toText, "base".toText, "br".toText, "col".toText, "embed".toText, "hr".toText,
    "img".toText, "input".toText, "link".toText, "meta".toText, "source".toText, "track".toText,
    "wbr".toText]

/-- **Void elements** have no closing tag where they have no content. -/
def isVoid (name : Text) : Bool := voidNames.contains name

/-- Whether a node counts as content: every node does but blank text. -/
def isContent (n : Node) : Bool :=
  match n.text? with
  | some value => !Text.allBlank value
  | none => true

/-- Whether some child counts as content. -/
def hasContent (children : List Node) : Bool := children.any isContent

end Node

end TemplateLayout
