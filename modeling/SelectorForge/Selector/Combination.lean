import SelectorForge.Selector.Compound

/-!
# Combinations

Two selector texts joined by a combinator. A combination holds the texts of its operands, not the
operands, so whatever happens to them later does not show in it.
-/

namespace SelectorForge

/-- The combinators of style sheets; any other text is allowed in their place. -/
inductive Combinator
  | descendant
  | child
  | adjacentSibling
  | generalSibling
deriving DecidableEq, Repr

namespace Combinator

def all : List Combinator := [.descendant, .child, .adjacentSibling, .generalSibling]

def text : Combinator → Text
  | .descendant => " "
  | .child => ">"
  | .adjacentSibling => "+"
  | .generalSibling => "~"

/-- The name in listings. -/
def memberName : Combinator → Text
  | .descendant => "DESCENDANT"
  | .child => "CHILD"
  | .adjacentSibling => "ADJACENT_SIBLING"
  | .generalSibling => "GENERAL_SIBLING"

/-- The place in listings. -/
def ordinal : Combinator → Nat
  | .descendant => 0
  | .child => 1
  | .adjacentSibling => 2
  | .generalSibling => 3

def ofMemberName? (name : Text) : Option Combinator := all.find? fun c => c.memberName == name

end Combinator

structure Combination where
  left : Text
  combinator : Text
  right : Text
  pad : Bool := true
deriving DecidableEq, Repr

namespace Combination

open CodePoint (space)

/-- The combinator without blanks around it; where nothing is left, one space. -/
def tightToken (combinator : Text) : Text :=
  if combinator.trim = [] then [space] else combinator.trim

/-- What stands between the operands. -/
def token (pad : Bool) (combinator : Text) : Text :=
  if pad then space :: combinator ++ [space] else tightToken combinator

def render (c : Combination) : Text := c.left ++ token c.pad c.combinator ++ c.right

/-- The line in the log. -/
def note (c : Combination) : Text :=
  ("Combined " : Text) ++ c.left.quoted ++ (" " : Text) ++ c.combinator.quoted ++ (" " : Text)
    ++ c.right.quoted

theorem token_true (combinator : Text) : token true combinator = space :: combinator ++ [space] :=
  rfl

theorem token_false (combinator : Text) : token false combinator = tightToken combinator := rfl

theorem tightToken_ne_nil (combinator : Text) : tightToken combinator ≠ [] := by
  unfold tightToken
  split
  · simp
  · assumption

/-- Operands never touch. -/
theorem token_ne_nil (pad : Bool) (combinator : Text) : token pad combinator ≠ [] := by
  cases pad with
  | true =>
    rw [token_true]
    exact List.cons_ne_nil _ _
  | false =>
    rw [token_false]
    exact tightToken_ne_nil combinator

end Combination

end SelectorForge
