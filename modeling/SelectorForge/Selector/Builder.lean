import SelectorForge.Selector.Combination

/-!
# Builders

A builder makes selectors and combinations with one configuration. A selector that it makes starts
with a fragment, which an empty selector never rejects.
-/

namespace SelectorForge

structure Builder where
  config : Config := {}
deriving DecidableEq, Repr, Inhabited

namespace Builder

/-- A selector with one fragment. -/
def start (b : Builder) (target : Stage) (value : Text) : Compound :=
  (Compound.empty b.config).place target value

/-- The combination of two selectors, padded as the configuration says. -/
def combine (b : Builder) (left : Compound) (combinator : Text) (right : Compound) : Combination :=
  ⟨left.render, combinator, right.render, b.config.pad⟩

theorem append_empty (b : Builder) (target : Stage) (value : Text) :
    (Compound.empty b.config).append target value = .ok (b.start target value) := by
  cases target <;> rfl

end Builder

end SelectorForge
