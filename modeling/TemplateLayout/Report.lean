import TemplateLayout.Alignment.Hunks
import TemplateLayout.Terminal
import TemplateLayout.Text.Lines

/-! # Check reports
Whether a template is formatted already, and the changes if it is not.

* `Report` — the outcome of a check;
* `Report.check` — a source held against its formatted text;
* `Report.render` — a report as text.
-/

namespace TemplateLayout

/-- The **outcome of checking** one template. -/
structure Report where
  /-- The name under which the template is shown. -/
  name : Text
  /-- Whether formatting changes it. -/
  changed : Bool
  /-- The changes as a unified diff. -/
  diff : Text
  deriving DecidableEq, Repr

namespace Report

/-- The name of a template that has none. -/
def unnamed : Text := "<template>".toText

/-- The name to show: an absent or empty one is replaced. -/
def nameOr : Option Text → Text
  | none | some [] => unnamed
  | some name => name

/-- Holds a source against its formatted text. -/
def check (source formatted : Text) (name : Option Text) : Report :=
  let name := nameOr name
  if source = formatted then ⟨name, false, []⟩
  else
    ⟨name, true, Text.joinLines (Alignment.unified (Text.splitLines source)
      (Text.splitLines formatted) name (name ++ " (formatted)".toText))⟩

/-- The lines of a report: its verdict, and the diff where there is one to show. -/
def lines (on : Bool) (r : Report) : List Text :=
  let title := Terminal.paintAs on .location r.name ++ [.char ':', .char ' ']
  if r.changed then
    (title ++ Terminal.paintAs on .errorLine "would reformat".toText) ::
      (Text.splitLines r.diff).map (Terminal.diffLine on)
  else [title ++ Terminal.paintAs on .hint "already formatted".toText]

/-- A report as **text**. Where `keep` is false all escape sequences are taken out of it, those of
the template included; where it is not given they stay just if colours are on. -/
def render (on : Bool) (r : Report) (keep : Option Bool) : Text :=
  let text := Text.joinLines (r.lines on)
  if keep.getD on then text else Terminal.strip text

end Report

end TemplateLayout
