import SelectorForge.Store.Effect

/-!
# Aspects

What a name can lead to that is no value of a store: an operation of an object, the enumeration
that a member belongs to, the table of all that a member is made of and has been given. An aspect
can be shown, and nothing else can be done with it.
-/

namespace SelectorForge.Session

open Store (isMember isStage)

inductive Aspect
  | operation
  | enumeration
  | memberSearch
  | memberTable
deriving DecidableEq, Repr

namespace Aspect

variable (st : Store)

/-- The aspect of a value that a name leads to; nothing for a name that leads to a value. -/
def ofName? (v : Value) (name : Text) : Option Aspect :=
  if st.isOperation v name then some .operation
  else if !isMember v then none
  else if name = Name.kind then some .enumeration
  else if name = Name.attributeTable then some .memberTable
  else if (Fields.get? name (st.memberTable v)).isSome then none
  else if name = Name.memberKind then some .enumeration
  else if isStage v ∧ name = Name.memberSearch then some .memberSearch
  else none

/-- What stands for an aspect in the place of the name of a kind. -/
def typeName : Aspect → Text
  | .operation | .memberSearch => "method"
  | .enumeration => "EnumType"
  | .memberTable => "dict"

def enumerationText (v : Value) : Text :=
  ("<enum '" : Text) ++ st.typeName v ++ ("'>" : Text)

def operationText (v : Value) (name owner : Text) : Text :=
  ("<bound method " : Text) ++ st.typeName v ++ ("." : Text) ++ name ++ (" of " : Text) ++ owner
    ++ (">" : Text)

/-- The enumeration of a member stands behind its value and its name. -/
def memberEntries (v : Value) : Except Fault (List Text) := do
  let entries ← (st.memberTable v).mapM fun (name, value) => do
    .ok (name.quoted ++ (": " : Text) ++ (← st.showValue value))
  let kind := Name.memberKind.quoted ++ (": " : Text) ++ enumerationText st v
  .ok (entries.take 2 ++ [kind] ++ entries.drop 2)

/-- An operation is shown with the value it belongs to. -/
def shown (v : Value) (name : Text) : Aspect → Except Fault Text
  | .operation => do .ok (operationText st v name (← st.showValue v))
  | .memberSearch => .ok (operationText st v name (enumerationText st v))
  | .enumeration => .ok (enumerationText st v)
  | .memberTable => do .ok (Store.enclosed "\x7b" "\x7d" (← memberEntries st v))

end Aspect

end SelectorForge.Session
