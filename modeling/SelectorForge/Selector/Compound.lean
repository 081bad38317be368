import SelectorForge.Selector.Stage
import SelectorForge.Selector.Config

/-!
# Compound selectors

A compound selector grows fragment by fragment in the order of the stages. A fragment of a stage
before the latest one is out of order, and a second fragment of a stage that holds at most one is
a duplicate; both are rejected, and a rejected fragment changes nothing.
-/

namespace SelectorForge

/-- Why a fragment is rejected. -/
inductive Rejection
  | outOfOrder (stage latest : Stage)
  | duplicate (stage : Stage)
deriving DecidableEq, Repr

namespace Rejection

/-- The stage of the rejected fragment. -/
def stage : Rejection → Stage
  | .outOfOrder stage _ => stage
  | .duplicate stage => stage

def orderMessage : Text :=
  ("Selector parts should be arranged in the following order: " : Text)
    ++ ("element, id, class, attribute, pseudo-class, pseudo-element" : Text)

def duplicateMessage : Text :=
  "Element, id and pseudo-element should not occur more than one time inside the selector"

def message : Rejection → Text
  | .outOfOrder _ _ => orderMessage
  | .duplicate _ => duplicateMessage

/-- The line in the log. -/
def note : Rejection → Text
  | .outOfOrder stage latest =>
    ("Rejected " : Text) ++ stage.label ++ (" fragment after " : Text) ++ latest.label
  | .duplicate stage => ("Rejected second " : Text) ++ stage.label ++ (" fragment" : Text)

end Rejection

structure Compound where
  config : Config := {}
  stage : Option Stage := none
  element : Option Text := none
  id : Option Text := none
  classes : List Text := []
  attributes : List Text := []
  pseudoClasses : List Text := []
  pseudoElement : Option Text := none
deriving DecidableEq, Repr, Inhabited

namespace Compound

/-- A selector without fragments. -/
def empty (config : Config) : Compound := { config }

/-! ### growing -/

/-- The fragment of a stage that holds at most one; nothing for the other stages. -/
def occupant (s : Compound) : Stage → Option Text
  | .element => s.element
  | .id => s.id
  | .pseudoElement => s.pseudoElement
  | .styleClass | .attr | .pseudoClass => none

/-- The rejection of a second fragment, if the selector can hold only one. -/
def duplicate? (s : Compound) (target : Stage) : Option Rejection :=
  if (s.occupant target).isSome then some (.duplicate target) else none

/-- The rejection of a fragment, if it is rejected: its order is looked at first. -/
def rejection? (s : Compound) (target : Stage) : Option Rejection :=
  match s.stage with
  | some latest =>
    if target < latest then some (.outOfOrder target latest) else s.duplicate? target
  | none => s.duplicate? target

/-- Puts a fragment into its place. -/
def place (s : Compound) (target : Stage) (value : Text) : Compound :=
  match target with
  | .element => { s with stage := some target, element := some value }
  | .id => { s with stage := some target, id := some value }
  | .styleClass => { s with stage := some target, classes := s.classes ++ [value] }
  | .attr => { s with stage := some target, attributes := s.attributes ++ [value] }
  | .pseudoClass => { s with stage := some target, pseudoClasses := s.pseudoClasses ++ [value] }
  | .pseudoElement => { s with stage := some target, pseudoElement := some value }

def append (s : Compound) (target : Stage) (value : Text) : Except Rejection Compound :=
  match s.rejection? target with
  | some r => .error r
  | none => .ok (s.place target value)

/-- What is left of a selector after an attempt to append: a rejected fragment is dropped. -/
def attempt (s : Compound) (target : Stage) (value : Text) : Compound :=
  match s.append target value with
  | .ok s' => s'
  | .error _ => s

theorem append_eq_ok_iff (s s' : Compound) (target : Stage) (value : Text) :
    s.append target value = .ok s' ↔ s.rejection? target = none ∧ s' = s.place target value := by
  unfold append
  split
  · next r h => simp [h]
  · next h => simp [h, eq_comm]

theorem append_eq_error_iff (s : Compound) (target : Stage) (value : Text) (r : Rejection) :
    s.append target value = .error r ↔ s.rejection? target = some r := by
  unfold append
  split
  · next r' h => simp [h]
  · next h => simp [h]

theorem config_place (s : Compound) (target : Stage) (value : Text) :
    (s.place target value).config = s.config := by cases target <;> rfl

theorem stage_place (s : Compound) (target : Stage) (value : Text) :
    (s.place target value).stage = some target := by cases target <;> rfl

/-! ### the text -/

def elementText (name : Text) : Text := name
def idText (name : Text) : Text := ('#' : CodePoint) :: name
def classText (name : Text) : Text := ('.' : CodePoint) :: name
def attributeText (condition : Text) : Text :=
  ('[' : CodePoint) :: condition ++ [(']' : CodePoint)]
def pseudoClassText (name : Text) : Text := (':' : CodePoint) :: name
def pseudoElementText (name : Text) : Text := (':' : CodePoint) :: (':' : CodePoint) :: name

def render (s : Compound) : Text :=
  (s.element.map elementText).getD []
    ++ (s.id.map idText).getD []
    ++ s.classes.flatMap classText
    ++ s.config.separator.intercalate (s.attributes.map attributeText)
    ++ s.pseudoClasses.flatMap pseudoClassText
    ++ (s.pseudoElement.map pseudoElementText).getD []

end Compound

end SelectorForge
