import TemplateLayout.Decimal.Notation
import TemplateLayout.Text.Quoted

/-! # Tree data
What a host program hands over instead of a tree: nested lists and mappings of plain values. A
mapping keeps its fields in the order in which they were written.

* `Value`, `Kind` — a value and the name of its kind;
* `Value.field?` — the value of a field;
* `Value.literal` — a value as a message shows it;
* `Value.put` — a field added or replaced.
-/

namespace TemplateLayout

/-- The **kind** of a value. -/
inductive Kind where
  /-- The absent value. -/
  | null
  /-- A truth value. -/
  | bool
  /-- A whole number. -/
  | int
  /-- Any other number. -/
  | real
  /-- A text. -/
  | string
  /-- A list. -/
  | list
  /-- A mapping. -/
  | mapping
  deriving DecidableEq, Repr

/-- The name that messages give a kind. -/
def Kind.name : Kind → Text
  | .null => "NoneType".toText
  | .bool => "bool".toText
  | .int => "int".toText
  | .real => "float".toText
  | .string => "str".toText
  | .list => "list".toText
  | .mapping => "dict".toText

/-- A **value** of tree data. -/
inductive Value where
  /-- The absent value. -/
  | null
  /-- A truth value. -/
  | bool (b : Bool)
  /-- A whole number. -/
  | int (i : Int)
  /-- Any other number. -/
  | real (r : Decimal.Real)
  /-- A text. -/
  | string (s : Text)
  /-- A list of values. -/
  | list (items : List Value)
  /-- A mapping from names to values, in the order of its fields. -/
  | mapping (fields : List (Text × Value))

namespace Value

/-- The kind of a value. -/
def kind : Value → Kind
  | .null => .null
  | .bool _ => .bool
  | .int _ => .int
  | .real _ => .real
  | .string _ => .string
  | .list _ => .list
  | .mapping _ => .mapping

/-! ## Fields -/

/-- The value of the first field of that name. -/
def lookup (fields : List (Text × Value)) (name : Text) : Option Value :=
  match fields with
  | [] => none
  | (key, value) :: rest => if key = name then some value else lookup rest name

/-- The value of a field of a mapping. -/
def field? (v : Value) (name : Text) : Option Value :=
  match v with
  | .mapping fields => lookup fields name
  | _ => none

/-- Adds a field at the end, or replaces the value of the field of that name where it stands. -/
def put (fields : List (Text × Value)) (name : Text) (value : Value) : List (Text × Value) :=
  match fields with
  | [] => [(name, value)]
  | (key, old) :: rest =>
    if key = name then (key, value) :: rest else (key, old) :: put rest name value

/-- A field that was put is found again. -/
@[simp] theorem lookup_put_self (fields : List (Text × Value)) (name : Text) (value : Value) :
    lookup (put fields name value) name = some value := by
  induction fields with
  | nil => simp [put, lookup]
  | cons f rest ih =>
    by_cases h : f.1 = name <;> simp [put, lookup, h, ih]

/-! ## Literals -/

mutual

/-- A value as a message shows it: texts quoted, lists in square brackets, mappings in braces.
Numbers are written with all their digits and the recursion goes as deep as the value does; a limit
on digits or on the stack, which a host program may have, is left out. -/
def literal : Value → Text
  | .null => "None".toText
  | .bool true => "True".toText
  | .bool false => "False".toText
  | .int i => Text.ofInt i
  | .real r => r.text
  | .string s => Text.quoted s
  | .list items => .char '[' :: ", ".toText.intercalate (literalItems items) ++ [.char ']']
  | .mapping fields => .char '{' :: ", ".toText.intercalate (literalFields fields) ++ [.char '}']

/-- The items of a list, each as a literal. -/
def literalItems : List Value → List Text
  | [] => []
  | v :: vs => literal v :: literalItems vs

/-- The fields of a mapping, each as a quoted name and a literal. -/
def literalFields : List (Text × Value) → List Text
  | [] => []
  | (name, v) :: fs => (Text.quoted name ++ [.char ':', .char ' '] ++ literal v) :: literalFields fs

end

/-- A value as plain text: a text stands for itself, anything else is its literal. -/
def plain : Value → Text
  | .string s => s
  | v => v.literal

end Value

end TemplateLayout
