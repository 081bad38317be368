import SelectorForge.Store.Name
import SelectorForge.Store.Value

/-!
# Scalars

What values without a node are good for: which count as texts, which as integers, and what numbers
and members of enumerations answer by themselves.
-/

namespace SelectorForge

namespace Store

/-! ### texts and numbers -/

/-- Texts and combinators are text. -/
def asText? : Value → Option Text
  | .str t => some t
  | .combinator c => some c.text
  | _ => none

/-- Truth values and stages count as integers. -/
def asInt? : Value → Option Int
  | .bool b => some (if b then 1 else 0)
  | .int n => some n
  | .stage s => some s.ordinal
  | _ => none

/-- A number answers for its parts. -/
def numberPart? (v : Value) (name : Text) : Option Value :=
  match v, asInt? v with
  | .float _, _ =>
    if name = Name.real then some v
    else if name = Name.imaginary then some (.float (Double.zero false))
    else none
  | _, some n =>
    if name = Name.real ∨ name = Name.numerator then some (.int n)
    else if name = Name.imaginary then some (.int 0)
    else if name = Name.denominator then some (.int 1)
    else none
  | _, none => none

/-! ### members of enumerations -/

/-- What a member of an enumeration answers for a name, whatever it has been given. -/
def memberAttribute? (v : Value) (name : Text) : Option Value :=
  match v with
  | .stage s =>
    if name = Name.name then some (.str s.memberName)
    else if name = Name.value then some (.int s.ordinal)
    else if name = Name.label then some (.str s.label)
    else none
  | .combinator c =>
    if name = Name.name then some (.str c.memberName)
    else if name = Name.value then some (.str c.text)
    else if name = Name.weakReferences then some .null
    else none
  | _ => none

/-- What a member of an enumeration is made of. -/
def memberFields : Value → Fields Value
  | .stage s => [(Name.memberValue, .int s.ordinal), (Name.memberName, .str s.memberName),
      (Name.memberPlace, .int s.ordinal)]
  | .combinator c => [(Name.memberValue, .str c.text), (Name.memberName, .str c.memberName),
      (Name.memberPlace, .int c.ordinal)]
  | _ => []

/-- A member of an enumeration leads to all others by their names. -/
def sibling? (v : Value) (name : Text) : Option Value :=
  match v with
  | .stage _ => (Stage.ofMemberName? name).map .stage
  | .combinator _ => (Combinator.ofMemberName? name).map .combinator
  | _ => none

def isStage : Value → Bool
  | .stage _ => true
  | _ => false

def isMember : Value → Bool
  | .stage _ | .combinator _ => true
  | _ => false

end Store

end SelectorForge
