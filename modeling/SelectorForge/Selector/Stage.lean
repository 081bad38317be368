import SelectorForge.Text.Blank
import SelectorForge.Text.Lowercase
import SelectorForge.Text.Quoted

/-!
# Stages

The six kinds of fragment of a compound selector, in the order in which they may stand, and the
names by which a fragment can be given.
-/

namespace SelectorForge

inductive Stage
  | element
  | id
  | styleClass
  | attr
  | pseudoClass
  | pseudoElement
deriving DecidableEq, Repr, Inhabited

namespace Stage

def all : List Stage := [.element, .id, .styleClass, .attr, .pseudoClass, .pseudoElement]

/-- The place in the order. -/
def ordinal : Stage → Nat
  | .element => 0
  | .id => 1
  | .styleClass => 2
  | .attr => 3
  | .pseudoClass => 4
  | .pseudoElement => 5

def label : Stage → Text
  | .element => "element"
  | .id => "id"
  | .styleClass => "class"
  | .attr => "attr"
  | .pseudoClass => "pseudo-class"
  | .pseudoElement => "pseudo-element"

/-- The name in listings. -/
def memberName : Stage → Text
  | .element => "ELEMENT"
  | .id => "ID"
  | .styleClass => "CLASS"
  | .attr => "ATTRIBUTE"
  | .pseudoClass => "PSEUDO_CLASS"
  | .pseudoElement => "PSEUDO_ELEMENT"

/-- The stages with at most one fragment. -/
def isSingleton : Stage → Bool
  | .element | .id | .pseudoElement => true
  | .styleClass | .attr | .pseudoClass => false

instance : LT Stage := ⟨fun a b => a.ordinal < b.ordinal⟩
instance : LE Stage := ⟨fun a b => a.ordinal ≤ b.ordinal⟩
instance (a b : Stage) : Decidable (a < b) := Nat.decLt a.ordinal b.ordinal
instance (a b : Stage) : Decidable (a ≤ b) := Nat.decLe a.ordinal b.ordinal

theorem lt_iff (a b : Stage) : a < b ↔ a.ordinal < b.ordinal := Iff.rfl
theorem le_iff (a b : Stage) : a ≤ b ↔ a.ordinal ≤ b.ordinal := Iff.rfl

theorem ordinal_injective {a b : Stage} (h : a.ordinal = b.ordinal) : a = b := by
  cases a <;> cases b <;> first | rfl | simp [ordinal] at h

theorem mem_all (s : Stage) : s ∈ all := by cases s <;> decide

/-! ### names -/

open CodePoint (underscore hyphen)

/-- The labels, and one longer name. -/
def names : List (Text × Stage) :=
  all.map (fun s => (s.label, s)) ++ [(("attribute" : Text), Stage.attr)]

/-- The name in lower case, with a hyphen for each underscore. -/
def hyphenated (name : Text) : Text :=
  name.trim.lower.map fun c => if c = underscore then hyphen else c

/-- The name without underscores, in lower case. -/
def compact (name : Text) : Text := Text.lower (name.trim.filter fun c => c != underscore)

def compactLabel (s : Stage) : Text := s.label.filter fun c => c != hyphen

/-- First the names as they are, then the labels without their hyphens. -/
def ofName? (name : Text) : Option Stage :=
  match names.lookup (hyphenated name) with
  | some s => some s
  | none => all.find? fun s => compact name == compactLabel s

/-- A stage by the name it has in listings. -/
def ofMemberName? (name : Text) : Option Stage := all.find? fun s => s.memberName == name

end Stage

end SelectorForge
