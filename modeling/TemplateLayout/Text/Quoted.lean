import TemplateLayout.Text.Printable
import TemplateLayout.Text.Numeral

/-! # Quoted text
The form in which a message shows a text: between quotes, with what cannot be seen written as an
escape. Single quotes are used unless the text has one and has no double quote.
-/

namespace TemplateLayout.Text

/-- The quote that a text is shown between. -/
def quoteFor (s : Text) : CodePoint :=
  if s.contains (.char '\'') && !s.contains (.char '"') then .char '"' else .char '\''

/-- One character as it stands between two quotes `q`. -/
def escapeChar (q c : CodePoint) : Text :=
  if c == q || c == .char '\\' then [.char '\\', c]
  else if c == .char '\n' then [.char '\\', .char 'n']
  else if c == .char '\r' then [.char '\\', .char 'r']
  else if c == .char '\t' then [.char '\\', .char 't']
  else if isPrintable c then [c]
  else if c.toNat < 0x100 then .char '\\' :: .char 'x' :: hexPlaces 2 c.toNat
  else if c.toNat < 0x10000 then .char '\\' :: .char 'u' :: hexPlaces 4 c.toNat
  else .char '\\' :: .char 'U' :: hexPlaces 8 c.toNat

/-- A text between quotes, with escapes for the quote, the backslash and the unprintable. -/
def quoted (s : Text) : Text :=
  let q := quoteFor s
  q :: s.flatMap (escapeChar q) ++ [q]

/-! Which quotes are used, and what is escaped between them. -/

example : quoted "it's".toText = "\"it's\"".toText := by decide +kernel

example : quoted "'\"\n".toText = "'\\'\"\\n'".toText := by decide +kernel

example : quoted [.char 'é', .char '\x7f', .char '\u200b', .surrogate 0] =
    "'é\\x7f\\u200b\\ud800'".toText := by decide +kernel

end TemplateLayout.Text
