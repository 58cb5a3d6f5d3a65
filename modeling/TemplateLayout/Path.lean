import TemplateLayout.Text.Quoted

/-! # Paths
A path leads from the top of tree data to one value inside it: by the name of a field in a mapping,
by a position in a list.

* `Step`, `Path` — the types;
* `Path.location` — a path as a diagnostic shows it, `root.children[2].name`;
* `Path.tuple` — a path as an event shows it, `('children', 2)`.
-/

namespace TemplateLayout

/-- One **step** of a path. -/
inductive Step where
  /-- Into the field of a mapping. -/
  | field (name : Text)
  /-- To a position of a list. -/
  | index (i : Int)
  deriving DecidableEq, Repr

/-- A **path** is its steps from the outermost inwards. -/
abbrev Path : Type := List Step

/-- A step in a location: `.name` or `[i]`. -/
def Step.location : Step → Text
  | .field name => .char '.' :: name
  | .index i => .char '[' :: Text.ofInt i ++ [.char ']']

/-- A step in a tuple: a quoted name or a number. -/
def Step.tuple : Step → Text
  | .field name => Text.quoted name
  | .index i => Text.ofInt i

/-- A path as one **location**, which begins at `root`. -/
def Path.location (path : Path) : Text := "root".toText ++ path.flatMap Step.location

/-- A path in round brackets; a single step keeps a comma. -/
def Path.tuple : Path → Text
  | [] => "()".toText
  | [s] => .char '(' :: s.tuple ++ ",)".toText
  | path => .char '(' :: ", ".toText.intercalate (path.map Step.tuple) ++ [.char ')']

@[simp] theorem Path.location_nil : Path.location [] = "root".toText := rfl

end TemplateLayout
