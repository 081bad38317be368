import SelectorForge.Text.Basic

/-!
# Configurations

What is free in the text of a selector: the separator between attribute fragments, and whether a
combinator is padded with spaces.
-/

namespace SelectorForge

structure Config where
  separator : Text := "."
  pad : Bool := true
deriving DecidableEq, Repr, Inhabited

namespace Config

/-- No separator and no padding: the plain text of a style sheet. -/
def normalized : Config := ⟨[], false⟩

end Config

end SelectorForge
