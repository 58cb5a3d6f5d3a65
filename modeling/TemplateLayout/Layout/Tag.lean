import TemplateLayout.Node

/-! # Tags
The text of attributes and of the tags around an element's content.

A single attribute stays on the line of its tag. Several stand one to a line, one unit deeper than
the tag, or two units where the element has content, so that they stand apart from it. The closing
tag of an element without content follows its opening tag, on a line of its own if the attributes
take several; a void element without content has none.
-/

namespace TemplateLayout

/-- An attribute as written: `name`, or `name="value"`. -/
def Attribute.write (a : Attribute) : Text :=
  match a.value with
  | none => a.name
  | some value => a.name ++ [.char '=', .char '"'] ++ value ++ [.char '"']

/-- Attributes without the tag around them: one inline, or several on lines of their own. -/
def Attribute.writeAll : List Attribute → Text → Text
  | [a], _ => a.write
  | attrs, indent => Text.joinLines (attrs.map fun a => indent ++ a.write)

@[simp] theorem Attribute.writeAll_singleton (a : Attribute) (indent : Text) :
    Attribute.writeAll [a] indent = a.write := rfl

namespace Tag

/-- The attributes of a tag with what divides them from its name. -/
def attributes (attrs : List Attribute) (indent : Text) : Text :=
  match attrs with
  | [] => []
  | [a] => .char ' ' :: a.write
  | _ => .char '\n' :: Attribute.writeAll attrs indent

/-- The opening tag at an indent. With content the attribute lines go two units deep. -/
def opening (name : Text) (attrs : List Attribute) (content : Bool) (indent : Text) : Text :=
  let deeper := if content then Text.indentUnit ++ Text.indentUnit else Text.indentUnit
  indent ++ .char '<' :: name ++ attributes attrs (indent ++ deeper) ++ [.char '>']

/-- The closing tag. -/
def closing (name : Text) : Text := [.char '<', .char '/'] ++ name ++ [.char '>']

/-- An element without content. -/
def empty (name : Text) (attrs : List Attribute) (indent : Text) : Text :=
  let start := opening name attrs false indent
  if Node.isVoid name then start
  else if attrs.length ≤ 1 then start ++ closing name
  else start ++ .char '\n' :: indent ++ closing name

/-- An element around the lines of its content. -/
def around (name : Text) (attrs : List Attribute) (indent : Text) (lines : List Text) : Text :=
  opening name attrs true indent ++ .char '\n' :: Text.joinLines lines ++ .char '\n' :: indent ++
    closing name

end Tag

end TemplateLayout
