import TemplateLayout.Diagnostic.Basic

/-! # Options
The unit of nesting is fixed; what can be chosen is the indent that a layout starts from, and how
deep elements may nest. A value of `Options` is always usable.

* `Options` — the two choices, with what makes them usable;
* `Options.make` — options from any two values, or what is wrong with them.
-/

namespace TemplateLayout

/-- The **options** of a layout. -/
structure Options where
  /-- The indent of every top-level line. -/
  baseIndent : Text
  /-- How many elements may stand above another. -/
  maxDepth : Nat
  /-- An indent holds spaces only. -/
  spaces : baseIndent.all (· == .char ' ') = true
  /-- Some nesting is allowed. -/
  positive : 0 < maxDepth

/-- Why two values make no options. -/
inductive OptionFault where
  /-- The indent holds something other than spaces. -/
  | indent (given : Text)
  /-- The depth is zero or less. -/
  | depth (given : Int)
  deriving DecidableEq, Repr

/-- The diagnostic of a fault. -/
def OptionFault.diagnostic : OptionFault → Diagnostic
  | .indent given =>
    .badOption "base_indent".toText ("must contain only spaces, got ".toText ++ Text.quoted given)
  | .depth given =>
    .badOption "max_depth".toText ("must be positive, got ".toText ++ Text.ofInt given)

namespace Options

/-- No indent, and two hundred levels. -/
def default : Options := ⟨[], 200, rfl, by decide⟩

/-- Options from an indent and a depth. A bad indent is reported before a bad depth. -/
def make (indent : Text) (depth : Int) : Except OptionFault Options :=
  if hs : indent.all (· == .char ' ') = true then
    if hd : 0 < depth then pure ⟨indent, depth.toNat, hs, by omega⟩ else throw (.depth depth)
  else throw (.indent indent)

end Options

end TemplateLayout
