import TemplateLayout.Text.Basic

/-! # Error codes
Every error has a code that can be searched for. Its middle part tells which part of the work
failed.
-/

namespace TemplateLayout

/-- What part of the work an error belongs to. -/
inductive Category where
  /-- The tree data. -/
  | tree
  /-- The layout. -/
  | runtime
  /-- The options. -/
  | config
  deriving DecidableEq, Repr

/-- The name of a category. -/
def Category.name : Category → Text
  | .tree => "tree".toText
  | .runtime => "runtime".toText
  | .config => "config".toText

/-- An error **code**. -/
inductive Code where
  /-- A node of no known type. -/
  | unknownNodeType
  /-- A required field is absent. -/
  | missingField
  /-- The text is no JSON. -/
  | invalidJson
  /-- A field has a value of the wrong kind. -/
  | invalidField
  /-- Elements nest too deep. -/
  | nestingDepth
  /-- An option has a value that cannot be used. -/
  | invalidOption
  deriving DecidableEq, Repr

namespace Code

/-- All codes, in the order of their numbers. -/
def all : List Code :=
  [.unknownNodeType, .missingField, .invalidJson, .invalidField, .nestingDepth, .invalidOption]

/-- The category of a code. -/
def category : Code → Category
  | .nestingDepth => .runtime
  | .invalidOption => .config
  | _ => .tree

/-- The text of a code. -/
def text : Code → Text
  | .unknownNodeType => "NGF-TRE-001".toText
  | .missingField => "NGF-TRE-002".toText
  | .invalidJson => "NGF-TRE-003".toText
  | .invalidField => "NGF-TRE-004".toText
  | .nestingDepth => "NGF-RUN-001".toText
  | .invalidOption => "NGF-CFG-001".toText

/-- The name under which a code is listed. -/
def label : Code → Text
  | .unknownNodeType => "UNKNOWN_NODE_TYPE".toText
  | .missingField => "MISSING_FIELD".toText
  | .invalidJson => "INVALID_JSON".toText
  | .invalidField => "INVALID_FIELD".toText
  | .nestingDepth => "NESTING_DEPTH".toText
  | .invalidOption => "INVALID_OPTION".toText

/-- The code of a text. -/
def ofText? (s : Text) : Option Code := all.find? fun c => c.text == s

end Code

end TemplateLayout
