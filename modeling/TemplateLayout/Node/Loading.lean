import TemplateLayout.Alignment.Suggestion
import TemplateLayout.Diagnostic.Basic
import TemplateLayout.Event
import TemplateLayout.Node
import TemplateLayout.Value.Reader

/-! # Loading trees
A tree from the data of a host program. Each mapping has a `type`; the other fields are read in a
fixed order and the first fault ends the loading. Fields that have no meaning are passed over, and a
child of type `docType` is left out of the tree.

* `Fault`, `LoadError` — what can be wrong with data, and where;
* `Node.ofValue` — the tree of a value;
* `Node.ofJson` — the tree of a JSON text.
-/

namespace TemplateLayout

/-! ## Faults -/

/-- What is wrong with one value of tree data. -/
inductive Fault where
  /-- A node is no mapping. -/
  | nodeNotMapping (got : Kind)
  /-- An attribute is no mapping. -/
  | attributeNotMapping (got : Kind)
  /-- A required field is absent. -/
  | missing (field : Text)
  /-- A field is no text. -/
  | notText (field : Text) (got : Kind)
  /-- A field is no list. -/
  | notList (field : Text) (got : Kind)
  /-- The type of a node is none of the four. -/
  | unknownType (given : Value)

/-- Why no tree can be loaded. -/
inductive LoadError where
  /-- The value at `path` has a fault. -/
  | malformed (path : Path) (fault : Fault)
  /-- The text is no JSON. -/
  | unreadable (text : Text) (error : ReadError)
  /-- The type of a child is a list or a mapping, which cannot be looked up. -/
  | compositeType (kind : Kind)

/-- The four types of nodes. -/
inductive NodeType where
  /-- A document. -/
  | root
  /-- An element. -/
  | element
  /-- Text. -/
  | text
  /-- A comment. -/
  | comment
  deriving DecidableEq, Repr

namespace NodeType

/-- The name of a type in tree data. -/
def name : NodeType → Text
  | .root => "root".toText
  | .element => "element".toText
  | .text => "text".toText
  | .comment => "comment".toText

/-- All types. -/
def all : List NodeType := [.root, .element, .text, .comment]

/-- The type that a value names. -/
def ofValue? : Value → Option NodeType
  | .string s => all.find? fun t => t.name == s
  | _ => none

end NodeType

namespace Fault

/-- The code of a fault. -/
def code : Fault → Code
  | .missing _ => .missingField
  | .unknownType _ => .unknownNodeType
  | _ => .invalidField

/-- What a fault says. -/
def message : Fault → Text
  | .nodeNotMapping got => "Node must be a mapping, got ".toText ++ got.name
  | .attributeNotMapping got => "Attribute must be a mapping, got ".toText ++ got.name
  | .missing field => "Node is missing required field '".toText ++ field ++ [.char '\'']
  | .notText field got =>
    "Field '".toText ++ field ++ "' must be a string, got ".toText ++ got.name
  | .notList field got =>
    "Field '".toText ++ field ++ "' must be a list, got ".toText ++ got.name
  | .unknownType given => "Unknown node type ".toText ++ given.literal

/-- The spelling that may have been meant. -/
def suggestion : Fault → Option Text
  | .unknownType given => Suggestion.best (NodeType.all.map NodeType.name) given.plain
  | _ => none

end Fault

namespace LoadError

/-- The error in tree data that a failure to load is. A type that cannot be looked up has none: it
is met before the node is looked at. -/
def treeError? : LoadError → Option TreeError
  | .malformed path fault => some ⟨fault.message, path, fault.code, fault.suggestion, none⟩
  | .unreadable text e =>
    some ⟨"Invalid JSON tree: ".toText ++ e.problem.message, [], .invalidJson, none,
      some (Snippet.ofSource text (e.line text) Snippet.defaultContext (some (e.column text)))⟩
  | .compositeType _ => none

/-- What a failure to load says. -/
def message (on : Bool) : LoadError → Text
  | .compositeType kind => "unhashable type: '".toText ++ kind.name ++ [.char '\'']
  | e => (e.treeError?.map (TreeError.message on)).getD []

end LoadError

/-! ## Fields -/

/-- Loading notes events and may fail. -/
abbrev Loading : Type → Type := ExceptT LoadError Logged

namespace Loading

/-- The failure of a fault at a place. -/
def fail {α : Type} (path : Path) (fault : Fault) : Loading α := throw (.malformed path fault)

/-- A field that has to be there. -/
def require (fields : List (Text × Value)) (name : Text) (path : Path) : Loading Value :=
  match Value.lookup fields name with
  | some v => pure v
  | none => fail path (.missing name)

/-- A value that has to be a text, found under `name`. -/
def textOf (v : Value) (name : Text) (path : Path) : Loading Text :=
  match v with
  | .string s => pure s
  | v => fail (path ++ [.field name]) (.notText name v.kind)

/-- A field that has to be there and be a text. -/
def requireText (fields : List (Text × Value)) (name : Text) (path : Path) : Loading Text := do
  let v ← require fields name path
  textOf v name path

/-- A field that may be absent or null, and is a text else. -/
def optionalText (fields : List (Text × Value)) (name : Text) (path : Path) :
    Loading (Option Text) :=
  match Value.lookup fields name with
  | none | some .null => pure none
  | some v => some <$> textOf v name path

end Loading

/-! ## Attributes -/

/-- The attribute of a value. -/
def Attribute.ofValue (v : Value) (path : Path) : Loading Attribute :=
  match v with
  | .mapping fields => do
    let name ← Loading.requireText fields "name".toText path
    let value ← Loading.optionalText fields "value".toText path
    pure ⟨name, value⟩
  | v => Loading.fail path (.attributeNotMapping v.kind)

/-- The attributes of the values of a list, the first of them at position `i` of the list. -/
def Attribute.ofItems (path : Path) : Nat → List Value → Loading (List Attribute)
  | _, [] => pure []
  | i, v :: vs => do
    let a ← Attribute.ofValue v (path ++ [.field "attrs".toText, .index i])
    let rest ← Attribute.ofItems path (i + 1) vs
    pure (a :: rest)

/-- The attributes of an element: a list, or none where the field is absent or null. -/
def Attribute.ofFields (fields : List (Text × Value)) (path : Path) : Loading (List Attribute) :=
  match Value.lookup fields "attrs".toText with
  | none | some .null => pure []
  | some (.list items) => Attribute.ofItems path 0 items
  | some v => Loading.fail (path ++ [.field "attrs".toText]) (.notList "attrs".toText v.kind)

/-! ## Nodes -/

namespace Node

/-- Whether a child is a document type, which belongs to no tree. -/
def isDeclaration (child : Value) : Bool :=
  match child.field? "type".toText with
  | some (.string s) => s == "docType".toText
  | _ => false

/-- The kind of a child's type where that is a list or a mapping. -/
def compositeType? (child : Value) : Option Kind :=
  match child.field? "type".toText with
  | some (.list _) => some .list
  | some (.mapping _) => some .mapping
  | _ => none

mutual

/-- **The tree of a value** that stands at `path`. -/
def load : Value → Path → Loading Node
  | .mapping fields, path => do
    let type ← Loading.require fields "type".toText path
    match NodeType.ofValue? type with
    | some .root => do
      let doctype ← Loading.optionalText fields "doctype".toText path
      let children ← loadChildren fields path
      pure (.document doctype children)
    | some .element => do
      let name ← Loading.requireText fields "name".toText path
      let attrs ← Attribute.ofFields fields path
      let children ← loadChildren fields path
      pure (.element name attrs children)
    | some .text => .text <$> Loading.optionalText fields "value".toText path
    | some .comment => .comment <$> Loading.requireText fields "value".toText path
    | none => Loading.fail path (.unknownType type)
  | v, path => Loading.fail path (.nodeNotMapping v.kind)

/-- The children of a mapping at `path`; none where the field is absent. -/
def loadChildren : List (Text × Value) → Path → Loading (List Node)
  | [], _ => pure []
  | (key, v) :: rest, path =>
    if key = "children".toText then loadList v path else loadChildren rest path

/-- The nodes of a list of children of the mapping at `path`; none where the value is null. -/
def loadList : Value → Path → Loading (List Node)
  | .null, _ => pure []
  | .list items, path => loadItems items 0 path
  | v, path => Loading.fail (path ++ [.field "children".toText]) (.notList "children".toText v.kind)

/-- The nodes of the values of a list, the first of them at position `i` of the list. A `docType` is
left out, and that is noted. -/
def loadItems : List Value → Nat → Path → Loading (List Node)
  | [], _, _ => pure []
  | v :: rest, i, path =>
    let here := path ++ [.field "children".toText, .index i]
    match compositeType? v with
    | some kind => throw (.compositeType kind)
    | none =>
      if isDeclaration v then do
        (Logged.note (.skippedDeclaration here) : Logged _)
        loadItems rest (i + 1) path
      else do
        let n ← load v here
        let ns ← loadItems rest (i + 1) path
        pure (n :: ns)

end

/-- The tree of a value. The recursion goes as deep as the value does; a limit on the stack, which a
host program may have, is left out. -/
def ofValue (v : Value) : Loading Node := load v []

/-- The tree of a JSON text. -/
def ofJson (text : Text) : Loading Node :=
  match Value.read text with
  | .ok v => ofValue v
  | .error e => throw (.unreadable text e)

end Node

end TemplateLayout
