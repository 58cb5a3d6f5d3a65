import TemplateLayout.Text.Quoted

/-! # The package
What the package says about itself.
-/

namespace TemplateLayout.Package

/-- The version. -/
def version : Text := "0.1.0".toText

/-- How much the package relies on a lock of the host process: not at all. -/
def lockUse : Nat := 0

/-- What is said of a name that the package does not have. -/
def unknownName (name : Text) : Text :=
  "module 'ngfmt' has no attribute ".toText ++ Text.quoted name

end TemplateLayout.Package
