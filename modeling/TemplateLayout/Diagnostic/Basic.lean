import TemplateLayout.Diagnostic.Code
import TemplateLayout.Diagnostic.Snippet
import TemplateLayout.Path

/-! # Diagnostics
An error as its reader sees it: a message, a code, and for tree data the place, a proposed spelling
and a snippet. The causes of errors are types of their own; each has a function to a diagnostic.

* `TreeError` — an error in tree data;
* `Diagnostic` — every kind of error;
* `Diagnostic.message` — what it says;
* `Diagnostic.compact` — what a terminal shows.
-/

namespace TemplateLayout

/-- An error in tree data. -/
structure TreeError where
  /-- What is wrong. -/
  body : Text
  /-- Where it is wrong. -/
  path : Path
  /-- The code. -/
  code : Code
  /-- A spelling that may have been meant. -/
  suggestion : Option Text
  /-- The text around the error, where the data came as text. -/
  snippet : Option Snippet
  deriving DecidableEq, Repr

namespace TreeError

/-- An error at a place, with no proposal and no snippet. -/
def located (body : Text) (path : Path) (code : Code) : TreeError := ⟨body, path, code, none, none⟩

/-- What is wrong and where, with the proposal if there is one. -/
def message (on : Bool) (e : TreeError) : Text :=
  let place := e.body ++ " at ".toText ++ e.path.location
  match e.suggestion with
  | none | some [] => place
  | some s => place ++ ". Did you mean '".toText ++ Terminal.paintAs on .suggestion s ++ "'?".toText

/-- The message under its code, with the snippet below it. -/
def compact (on : Bool) (e : TreeError) : Text :=
  let head := Terminal.errorHeader on (some e.code.text) (e.message on)
  match e.snippet with
  | none => head
  | some s => head ++ .char '\n' :: s.render on

end TreeError

/-- A **diagnostic**. -/
inductive Diagnostic where
  /-- Tree data that cannot be turned into a tree. -/
  | tree (e : TreeError)
  /-- An element below more others than the limit allows. -/
  | nesting (depth limit : Int) (element : Option Text)
  /-- An option that cannot be used. -/
  | badOption (name reason : Text)
  /-- Any other message, with a code or without. -/
  | general (text : Text) (code : Option Code)
  deriving DecidableEq, Repr

namespace Diagnostic

/-- The code of a diagnostic. -/
def code? : Diagnostic → Option Code
  | .tree e => some e.code
  | .nesting .. => some .nestingDepth
  | .badOption .. => some .invalidOption
  | .general _ code => code

/-- What a diagnostic **says**. -/
def message (on : Bool) : Diagnostic → Text
  | .tree e => e.message on
  | .nesting depth limit element =>
    let text := "Element nesting depth ".toText ++ Text.ofInt depth ++
      " exceeds max_depth=".toText ++ Text.ofInt limit
    match element with
    | none | some [] => text
    | some name => text ++ " at <".toText ++ name ++ [.char '>']
  | .badOption name reason => "Invalid option '".toText ++ name ++ "': ".toText ++ reason
  | .general text _ => text

/-- What is added below an error of nesting. -/
def depthHint (on : Bool) : Text :=
  [.char ' ', .char ' '] ++ Terminal.paintAs on .hint "Hint:".toText ++
    " Raise FormatOptions(max_depth=...) for deeply nested templates".toText

/-- The message under its code, unless it shows the code already. -/
def underCode (on : Bool) (code : Option Code) (message : Text) : Text :=
  match code with
  | none => message
  | some c =>
    if Text.occursIn c.text message then message
    else Terminal.errorHeader on (some c.text) message

/-- What a terminal **shows**: the message under its code, and what belongs below it. -/
def compact (on : Bool) : Diagnostic → Text
  | .tree e => e.compact on
  | d@(.nesting ..) =>
    Terminal.errorHeader on (some Code.nestingDepth.text) (d.message on) ++ .char '\n' ::
      depthHint on
  | d => underCode on d.code? (d.message on)

end Diagnostic

end TemplateLayout
