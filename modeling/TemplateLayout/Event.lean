import TemplateLayout.Path
import TemplateLayout.Text.Quoted

/-! # Events
Work on a template never stops at odd content; it goes on and leaves a note. `Logged` pairs a result
with the notes left on the way, in order, and a computation that may also fail is
`ExceptT ε Logged`, which keeps the notes left before the failure.

* `Event` — what can be noted, `Event.message` its wording;
* `Logged` — a value with its events;
* `Logged.note` — leave one event.
-/

namespace TemplateLayout

/-- Something worth a note while a tree is loaded or laid out. -/
inductive Event where
  /-- A document-type child at `path` was left out of the tree. -/
  | skippedDeclaration (path : Path)
  /-- A directive has no block header and was written as it stands. -/
  | verbatimDirective (content : Text)
  /-- A block closer met no open block and was dropped. -/
  | strayCloser
  /-- A sequence of nodes ended with `count` blocks open. -/
  | blocksLeftOpen (count : Nat)
  /-- A document of `nodes` children was laid out in `entries` entries. -/
  | documentLaidOut (nodes entries : Nat)
  deriving DecidableEq, Repr

/-- The wording of an event. -/
def Event.message : Event → Text
  | .skippedDeclaration path => "Skipping docType node at ".toText ++ path.tuple
  | .verbatimDirective content =>
    "Directive text has no block header, emitting verbatim: ".toText ++ Text.quoted content
  | .strayCloser => "Dropping block closer with no open block".toText
  | .blocksLeftOpen count =>
    Text.ofNat count ++ " control-flow block(s) left open at end of sequence".toText
  | .documentLaidOut nodes entries =>
    "Formatted ".toText ++ Text.ofNat nodes ++ " top-level node(s) into ".toText ++
      Text.ofNat entries ++ " line(s)".toText

/-- A **logged value**: a value, and the events noted while it was made. -/
structure Logged (α : Type) where
  /-- The events, in the order in which they were noted. -/
  events : List Event
  /-- The value. -/
  value : α
  deriving DecidableEq, Repr

namespace Logged

variable {α β : Type}

/-- A value made without a note. -/
protected def pure (a : α) : Logged α := ⟨[], a⟩

/-- Goes on from a logged value; the events of both parts follow each other. -/
protected def bind (x : Logged α) (f : α → Logged β) : Logged β :=
  let y := f x.value
  ⟨x.events ++ y.events, y.value⟩

instance : Monad Logged where
  pure := Logged.pure
  bind := Logged.bind

/-- Leaves one event. -/
def note (e : Event) : Logged Unit := ⟨[e], ()⟩

@[simp] theorem value_pure (a : α) : (pure a : Logged α).value = a := rfl

@[simp] theorem events_pure (a : α) : (pure a : Logged α).events = [] := rfl

@[simp] theorem value_bind (x : Logged α) (f : α → Logged β) :
    (x >>= f).value = (f x.value).value := rfl

@[simp] theorem events_bind (x : Logged α) (f : α → Logged β) :
    (x >>= f).events = x.events ++ (f x.value).events := rfl

@[simp] theorem value_map (g : α → β) (x : Logged α) : (g <$> x).value = g x.value := rfl

@[simp] theorem events_map (g : α → β) (x : Logged α) : (g <$> x).events = x.events :=
  List.append_nil _

@[simp] theorem value_note (e : Event) : (note e).value = () := rfl

@[simp] theorem events_note (e : Event) : (note e).events = [e] := rfl

instance : LawfulMonad Logged := LawfulMonad.mk' Logged
  (fun x => congrArg (Logged.mk · x.value) (List.append_nil x.events))
  (fun _ _ => rfl)
  (fun _ _ _ => congrArg (Logged.mk · _) (List.append_assoc ..))

end Logged

end TemplateLayout
