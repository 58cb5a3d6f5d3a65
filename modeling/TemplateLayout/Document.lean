import TemplateLayout.Layout.Render
import TemplateLayout.Node.Loading
import TemplateLayout.Options

/-! # Formatting documents
The entry points: a node, a document, or the source of a document together with the parser of the
host program.

* `Node.format` — any node under options;
* `Node.formatDocument` — a document, and nothing else;
* `Document.leadingDoctype` — the declaration that a source begins with;
* `Document.formatSource` — a source, by way of a parser.
-/

namespace TemplateLayout

/-- Why a document cannot be formatted. -/
inductive FormatError where
  /-- The tree cannot be rendered. -/
  | layout (e : LayoutError)
  /-- The tree cannot be loaded. -/
  | load (e : LoadError)
  /-- What was to be formatted is no document. -/
  | notDocument (kind : Text)
  /-- What the parser returned is no document. -/
  | notParsed (kind : Text)

/-- The diagnostic of a layout error. -/
def LayoutError.diagnostic : LayoutError → Diagnostic
  | .unprintable kind =>
    .tree (.located ("Cannot print ".toText ++ kind) [] .unknownNodeType)
  | .tooDeep depth limit element => .nesting depth limit (some element)

/-- The diagnostic of a format error. The one failure to load that is no error in tree data has
none. -/
def FormatError.diagnostic? : FormatError → Option Diagnostic
  | .layout e => some e.diagnostic
  | .load e => e.treeError?.map Diagnostic.tree
  | .notDocument kind =>
    some (.tree (.located ("Cannot format ".toText ++ kind ++
      " as a document, expected a root node".toText) [] .invalidField))
  | .notParsed kind =>
    some (.tree (.located ("Parser returned ".toText ++ kind ++
      ", expected a root node".toText) [] .invalidField))

/-- Formatting notes events and may fail. -/
abbrev Formatting : Type → Type := ExceptT FormatError Logged

/-- A **node under options**. The indent is that of the options unless another is given. -/
def Node.format (o : Options) (n : Node) (indent : Option Text) : Formatting Text :=
  (n.render o.maxDepth (indent.getD o.baseIndent) 0).adapt .layout

/-- A **document under options**; any other node is refused. -/
def Node.formatDocument (o : Options) (n : Node) (indent : Option Text) : Formatting Text :=
  match n with
  | .document .. => n.format o indent
  | n => throw (.notDocument n.kind)

/-- The document whose only child is a text. -/
def Node.ofText (s : Text) : Node := .document none [.text (some s)]

namespace Document

/-- The **declaration** `<!DOCTYPE …>` that a source begins with, as it is written there. -/
def leadingDoctype (source : Text) : Option Text :=
  let opening := "<!doctype".toText
  if (source.take opening.length).map CodePoint.toLower = opening then
    let body := (source.drop opening.length).takeWhile (· != .char '>')
    let size := opening.length + body.length
    if size < source.length then some (source.take (size + 1)) else none
  else none

/-- What a parser of the host program returns: a tree, or data to load one from. -/
inductive Parsed where
  /-- A tree. -/
  | tree (n : Node)
  /-- Data. -/
  | data (v : Value)

/-- The tree that a parser returned, loaded where it is a mapping. -/
def Parsed.tree? : Parsed → Formatting Node
  | .tree n => pure n
  | .data v =>
    match v with
    | .mapping _ => (Node.ofValue v).adapt .load
    | v => throw (.notParsed v.kind.name)

/-- A **source under options**, parsed by the host program. A document without a declaration takes
the one that the source begins with. -/
def formatSource (o : Options) (parse : Text → Loading Parsed) (source : Text) :
    Formatting Text := do
  let parsed ← (parse source).adapt .load
  let n ← parsed.tree?
  match n with
  | .document none children =>
    Node.formatDocument o (.document (leadingDoctype source) children) none
  | .document .. => n.formatDocument o none
  | n => throw (.notParsed n.kind)

end Document

end TemplateLayout
