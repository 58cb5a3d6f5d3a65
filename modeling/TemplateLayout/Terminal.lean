import TemplateLayout.Text.Numeral

/-! # Terminal colours
Colours for diagnostics and reports. Whether they are wanted is an argument of every function that
writes any, so one run may write both kinds of text.

* `Color`, `Role` — the colours, and what each is used for;
* `Terminal.paint` — a text in some colours;
* `Terminal.strip` — a text without escape sequences;
* `Terminal.wanted` — whether colours are wanted, from the environment.
-/

namespace TemplateLayout

/-- A **colour** or mode of a terminal. -/
inductive Color where
  /-- Back to plain text. -/
  | reset
  /-- Bold. -/
  | bold
  /-- Faint. -/
  | dim
  /-- Red. -/
  | red
  /-- Green. -/
  | green
  /-- Yellow. -/
  | yellow
  /-- Cyan. -/
  | cyan
  /-- Bright red. -/
  | brightRed
  /-- Bright green. -/
  | brightGreen
  /-- Bright magenta. -/
  | brightMagenta
  deriving DecidableEq, Repr

namespace Color

/-- The colours by their names. -/
def named : List (Text × Color) :=
  [("reset".toText, .reset), ("bold".toText, .bold), ("dim".toText, .dim), ("red".toText, .red),
    ("green".toText, .green), ("yellow".toText, .yellow), ("cyan".toText, .cyan),
    ("bright_red".toText, .brightRed), ("bright_green".toText, .brightGreen),
    ("bright_magenta".toText, .brightMagenta)]

/-- The colour of a name. -/
def ofName? (name : Text) : Option Color := named.lookup name

/-- The number of a colour in an escape sequence. -/
def number : Color → Nat
  | .reset => 0
  | .bold => 1
  | .dim => 2
  | .red => 31
  | .green => 32
  | .yellow => 33
  | .cyan => 36
  | .brightRed => 91
  | .brightGreen => 92
  | .brightMagenta => 95

/-- The escape sequence that turns a colour on. -/
def sequence (c : Color) : Text := [.char '\x1b', .char '['] ++ Text.ofNat c.number ++ [.char 'm']

end Color

/-- What a part of a diagnostic says, which decides its colours. -/
inductive Role where
  /-- The code of an error. -/
  | errorCode
  /-- A place or a file. -/
  | location
  /-- The number of a source line. -/
  | lineNumber
  /-- A source line in error. -/
  | errorLine
  /-- Advice. -/
  | hint
  /-- A proposed spelling. -/
  | suggestion
  /-- What stands in the background. -/
  | background
  deriving DecidableEq, Repr

/-- The colours of a role. -/
def Role.colors : Role → List Color
  | .errorCode => [.brightRed, .bold]
  | .location => [.cyan]
  | .lineNumber => [.yellow]
  | .errorLine => [.brightRed]
  | .hint => [.green]
  | .suggestion => [.brightGreen, .bold]
  | .background => [.dim]

namespace Terminal

/-! ## Writing colours -/

/-- A text in some colours, plain again after it. Without colours it stays as it is. -/
def paint (on : Bool) (colors : List Color) (s : Text) : Text :=
  if on && !colors.isEmpty then colors.flatMap Color.sequence ++ s ++ Color.reset.sequence else s

@[simp] theorem paint_off (colors : List Color) (s : Text) : paint false colors s = s := rfl

@[simp] theorem paint_nil (on : Bool) (s : Text) : paint on [] s = s := by
  cases on <;> rfl

/-- A text in the colours of a role. -/
def paintAs (on : Bool) (role : Role) (s : Text) : Text := paint on role.colors s

@[simp] theorem paintAs_off (role : Role) (s : Text) : paintAs false role s = s := rfl

/-- A line of a unified diff, by the marker that it begins with. -/
def diffLine (on : Bool) (s : Text) : Text :=
  if "+++".toText.isPrefixOf s || "---".toText.isPrefixOf s then paint on [.bold] s
  else if "@@".toText.isPrefixOf s then paint on [.brightMagenta] s
  else if [.char '+'].isPrefixOf s then paint on [.green] s
  else if [.char '-'].isPrefixOf s then paint on [.red] s
  else s

/-- A message with the code of its error before it, if it has one. -/
def errorHeader (on : Bool) (code : Option Text) (message : Text) : Text :=
  match code with
  | none | some [] => message
  | some c => paintAs on .errorCode c ++ [.char ':', .char ' '] ++ message

/-- A source line with its number, marked where it is the one in error. -/
def sourceLine (on : Bool) (number : Int) (content : Text) (isError : Bool) : Text :=
  let marker : CodePoint := if isError then .char '>' else .char ' '
  paintAs on .lineNumber (marker :: Text.alignRight 3 (Text.ofInt number)) ++ " | ".toText ++
    paintAs on (if isError then .errorLine else .background) content

/-! ## Removing colours -/

/-- Whether a code point lies in a closed range. -/
def within (first last : Nat) (c : CodePoint) : Bool := first ≤ c.toNat && c.toNat ≤ last

/-- The length of the escape sequence whose text after the escape character is given: one character
of the upper control set, or a bracket with parameters, intermediates and a final character. -/
def sequenceLength : Text → Option Nat
  | [] => none
  | .char '[' :: r =>
    let parameters := (r.takeWhile (within 0x30 0x3F)).length
    let intermediates := ((r.drop parameters).takeWhile (within 0x20 0x2F)).length
    match r.drop (parameters + intermediates) with
    | [] => none
    | final :: _ => if within 0x40 0x7E final then some (parameters + intermediates + 2) else none
  | c :: _ => if within 0x40 0x5F c then some 1 else none

/-- A text **without its escape sequences**. An escape character that begins none is kept. -/
def strip (s : Text) : Text :=
  match s with
  | [] => []
  | .char '\x1b' :: r =>
    match sequenceLength r with
    | some n => strip (r.drop n)
    | none => .char '\x1b' :: strip r
  | c :: r => c :: strip r
termination_by s.length
decreasing_by all_goals simp; try omega

/-! ## Whether colours are wanted -/

/-- Whether an environment variable is set to something. -/
def isSet : Option Text → Bool
  | none | some [] => false
  | some _ => true

/-- Colours are wanted where they are forced, else not where they are refused, else on a
terminal. -/
def wanted (force refuse : Option Text) (tty : Bool) : Bool :=
  if isSet force then true else if isSet refuse then false else tty

end Terminal

end TemplateLayout
