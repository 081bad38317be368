import SelectorForge.Store.Attribute

/-!
# Assignments

Giving attributes to objects and taking them away. A frozen object refuses every change, a
property of a selector can be neither assigned nor deleted, and only records and members of
enumerations take new names. What is reserved for a kind is checked before it is changed.

An object that is given a table takes it for its attributes: from then on it writes into the table,
and what others write into the table it has as an attribute.
-/

namespace SelectorForge.Store

variable (st : Store)

/-! ### properties -/

/-- The attributes of a selector that its properties show. -/
def selectorProperties : List (Text × Text) := [
  (Name.stage, Name.ownStage), (Name.elementName, Name.ownElement), (Name.idName, Name.ownId),
  (Name.classNames, Name.ownClasses), (Name.attributes, Name.ownAttributes),
  (Name.pseudoClasses, Name.ownPseudoClasses), (Name.pseudoElementName, Name.ownPseudoElement)]

/-- The properties that answer with a copy of a list. -/
def listProperties : List Text := [Name.classNames, Name.attributes, Name.pseudoClasses]

/-- The attribute behind a property; nothing for a name that is no property of the value. -/
def property? (v : Value) (name : Text) : Option Text :=
  match v with
  | .ref r =>
    match st.node r with
    | .record .selector _ => selectorProperties.lookup name
    | _ => none
  | _ => none

/-! ### what belongs to errors -/

def checkLink (value : Value) (name : Text) : Except Fault Unit :=
  if value = .null ∨ (st.core? value).isSome then .ok () else .error (.notALink name)

/-- The tuple of the items of a value, which is a new one unless the value is a tuple itself. -/
def asTuple (v : Value) : Except Fault (Ref × Store) :=
  match v with
  | .ref r =>
    match st.node r with
    | .tuple _ => .ok (r, st)
    | _ => (st.items v).map fun items => (st.size, (st.alloc (.tuple items)).2)
  | v => (st.items v).map fun items => (st.size, (st.alloc (.tuple items)).2)

/-- The core of an error after an assignment, and the store with it; nothing for a name that does
not belong to it. -/
def assignCore? (core : ErrorCore) (name : Text) (value : Value) :
    Option (Except Fault (ErrorCore × Store)) :=
  let linked := { core with further := Fields.put name value core.further }
  if name = Name.arguments then
    some ((st.asTuple value).map fun (r, st) => ({ core with arguments := some r }, st))
  else if name = Name.cause then
    some ((st.checkLink value "cause").map fun _ =>
      ({ linked with further := Fields.put Name.hidesContext (.bool true) linked.further }, st))
  else if name = Name.context then
    some ((st.checkLink value "context").map fun _ => (linked, st))
  else if name = Name.trace then
    some (if value = .null then .ok (core, st) else .error .notATrace)
  else if name = Name.hidesContext then
    some (match value with
      | .bool _ => .ok (linked, st)
      | _ => .error .notATruthValue)
  else none

/-- Nothing that belongs to an error can be deleted. -/
def deleteCore? (name : Text) : Option Fault :=
  if [Name.arguments, Name.cause, Name.context, Name.trace].contains name then
    some (.coreDelete name)
  else if name = Name.hidesContext then some .truthDelete
  else if name = Name.attributeTable then some .tableDelete
  else none

/-! ### changes -/

/-- The entries with an attribute: a key that is the name keeps its place and its spelling. -/
def putNamed (name : Text) (value : Value) : List (Value × Value) → List (Value × Value)
  | [] => [(.str name, value)]
  | (key, v) :: rest =>
    if asText? key = some name then (key, value) :: rest
    else (key, v) :: putNamed name value rest

def eraseNamed (name : Text) : List (Value × Value) → List (Value × Value)
  | [] => []
  | (key, v) :: rest =>
    if asText? key = some name then rest else (key, v) :: eraseNamed name rest

/-- Changes the attributes of a record, which stand in the record or in the table that it shares;
what is no record stays as it is. -/
def changeAttributes (r : Ref) (onFields : Fields Value → Fields Value)
    (onEntries : List (Value × Value) → List (Value × Value)) : Store :=
  match st.node r with
  | .record kind (.own fields) => st.write r (.record kind (.own (onFields fields)))
  | .record _ (.shared table) =>
    match st.node table with
    | .table entries => st.write table (.table (onEntries entries))
    | _ => st
  | _ => st

/-- Assigns past all guards. -/
def assign (r : Ref) (name : Text) (value : Value) : Store :=
  st.changeAttributes r (Fields.put name value) (putNamed name value)

/-- Deletes past all guards. -/
def erase (r : Ref) (name : Text) : Store :=
  st.changeAttributes r (Fields.erase name) (eraseNamed name)

/-- The place of a table; nothing for a value that is no table. -/
def asTable? (v : Value) : Option Ref :=
  match v with
  | .ref r =>
    match st.node r with
    | .table _ => some r
    | _ => none
  | _ => none

/-- The kind that lets its objects be referred to weakly. -/
def weakOwner : Kind → Text
  | .error _ _ => ErrorKind.general.name
  | kind => kind.name

def setRecordAttribute (r : Ref) (kind : Kind) (attributes : Attributes) (name : Text)
    (value : Value) : Except Fault Store :=
  if name = Name.weakReferences then .error (.notWritable name (weakOwner kind))
  else if name = Name.attributeTable then
    match st.asTable? value with
    | some table => .ok (st.write r (.record kind (.shared table)))
    | none => .error (.notATable (st.typeName value))
  else if (st.property? (.ref r) name).isSome then .error (.noSetter name kind.name)
  else
    match kind with
    | .error k core =>
      match st.assignCore? core name value with
      | some changed =>
        changed.map fun (core, st) => st.write r (.record (.error k core) attributes)
      | none => .ok (st.assign r name value)
    | _ => .ok (st.assign r name value)

def isFrozen (v : Value) : Bool :=
  match v with
  | .ref r =>
    match st.node r with
    | .record kind _ => kind.isFrozen
    | _ => false
  | _ => false

/-- What belongs to a value without a node and cannot be assigned. -/
def assignFault? (v : Value) (name : Text) : Option Fault :=
  if isMember v ∧ name = Name.weakReferences then
    some (.notWritable name (if isStage v then "Enum" else "StrEnum"))
  else if (memberAttribute? v name).isSome then
    some (if name = Name.label then .noSetter name (st.typeName v) else .memberAssign name)
  else
    match numberPart? v name, v with
    | some _, .float _ => some (.notWritable name "float")
    | some _, _ => some (.notWritable name "int")
    | none, _ => none

/-- A value without a node takes no attributes, unless it is a member of an enumeration. -/
def setScalarAttribute (v : Value) (name : Text) (value : Value) : Except Fault Store :=
  match st.assignFault? v name with
  | some f => .error f
  | none =>
    if isMember v then
      if name = Name.attributeTable then
        match st.asTable? value with
        | some table => .ok (st.give v (st.fields (.shared table)))
        | none => .error (.notATable (st.typeName value))
      else .ok (st.give v (Fields.put name value (st.givenTo v)))
    else .error (.noAttribute (st.typeName v) name)

def setAttribute (v : Value) (name : Text) (value : Value) : Except Fault Store :=
  if st.isFrozen v then .error (.frozenAssign name)
  else if name = Name.kind then .error (.notAKind (st.typeName value))
  else
    match v with
    | .ref r =>
      match st.node r with
      | .record kind attributes => st.setRecordAttribute r kind attributes name value
      | .point x y =>
        if name = Name.x then .ok (st.write r (.point (some value) y))
        else if name = Name.y then .ok (st.write r (.point x (some value)))
        else .error (.noAttribute (st.typeName v) name)
      | _ => .error (.noAttribute (st.typeName v) name)
    | v => st.setScalarAttribute v name value

def deleteRecordAttribute (r : Ref) (kind : Kind) (attributes : Attributes) (name : Text) :
    Except Fault Store :=
  let fault? := match kind with
    | .error _ _ => deleteCore? name
    | _ => none
  match fault? with
  | some f => .error f
  | none =>
    if name = Name.weakReferences then .error (.notWritable name (weakOwner kind))
    else if name = Name.attributeTable then .ok (st.write r (.record kind (.own [])))
    else if (st.property? (.ref r) name).isSome then .error (.noDeleter name kind.name)
    else if (Fields.get? name (st.fields attributes)).isSome then .ok (st.erase r name)
    else .error (.noAttribute kind.name name)

def deleteScalarAttribute (v : Value) (name : Text) : Except Fault Store :=
  match st.assignFault? v name with
  | some (.noSetter property type) => .error (.noDeleter property type)
  | some (.memberAssign name) => .error (.memberDelete name)
  | some f => .error f
  | none =>
    if isMember v ∧ name = Name.attributeTable then .ok (st.give v [])
    else if (Fields.get? name (st.givenTo v)).isSome then
      .ok (st.give v (Fields.erase name (st.givenTo v)))
    else .error (.noAttribute (st.typeName v) name)

def deleteAttribute (v : Value) (name : Text) : Except Fault Store :=
  if st.isFrozen v then .error (.frozenDelete name)
  else if name = Name.kind then .error .kindDelete
  else
    match v with
    | .ref r =>
      match st.node r with
      | .record kind attributes => st.deleteRecordAttribute r kind attributes name
      | .point x y =>
        if name = Name.x then
          if x.isSome then .ok (st.write r (.point none y)) else .error (.emptyPlace name)
        else if name = Name.y then
          if y.isSome then .ok (st.write r (.point x none)) else .error (.emptyPlace name)
        else .error (.noAttribute (st.typeName v) name)
      | _ => .error (.noAttribute (st.typeName v) name)
    | v => st.deleteScalarAttribute v name

/-- Appends to a list; nothing else can be appended to. -/
def push (v : Value) (item : Value) : Except Fault Store :=
  match v with
  | .ref r =>
    match st.node r with
    | .list items => .ok (st.write r (.list (items ++ [item])))
    | _ => st.callMissing v Name.append
  | _ => st.callMissing v Name.append

/-! ### what a change leaves alone -/

theorem size_changeAttributes (r : Ref) (onFields : Fields Value → Fields Value)
    (onEntries : List (Value × Value) → List (Value × Value)) :
    (st.changeAttributes r onFields onEntries).size = st.size := by
  unfold changeAttributes
  split
  · exact size_write _ _ _
  · split
    · exact size_write _ _ _
    · rfl
  · rfl

/-- A change of the attributes of a record reaches no other node than a table. -/
theorem node_changeAttributes_of_ne {r r' : Ref} (h : r ≠ r')
    (ht : ∀ entries, st.node r' ≠ .table entries) (onFields : Fields Value → Fields Value)
    (onEntries : List (Value × Value) → List (Value × Value)) :
    (st.changeAttributes r onFields onEntries).node r' = st.node r' := by
  unfold changeAttributes
  split
  · exact node_write_of_ne _ _ h
  · split
    · next table _ entries hn =>
      refine node_write_of_ne _ _ ?_
      rintro rfl
      exact ht entries hn
    · rfl
  · rfl

/-- A record that shares no table keeps its change to itself. -/
theorem node_changeAttributes_own {r r' : Ref} {kind : Kind} {fields : Fields Value}
    (hr : st.node r = .record kind (.own fields)) (h : r ≠ r')
    (onFields : Fields Value → Fields Value)
    (onEntries : List (Value × Value) → List (Value × Value)) :
    (st.changeAttributes r onFields onEntries).node r' = st.node r' := by
  simp only [changeAttributes, hr]
  exact node_write_of_ne _ _ h

theorem size_assign (r : Ref) (name : Text) (value : Value) :
    (st.assign r name value).size = st.size :=
  st.size_changeAttributes r _ _

theorem node_assign_of_ne {r r' : Ref} (h : r ≠ r') (ht : ∀ entries, st.node r' ≠ .table entries)
    (name : Text) (value : Value) : (st.assign r name value).node r' = st.node r' :=
  st.node_changeAttributes_of_ne h ht _ _

theorem setAttribute_of_isFrozen {v : Value} (h : st.isFrozen v = true) (name : Text)
    (value : Value) : st.setAttribute v name value = .error (.frozenAssign name) := by
  unfold setAttribute
  rw [if_pos h]

theorem deleteAttribute_of_isFrozen {v : Value} (h : st.isFrozen v = true) (name : Text) :
    st.deleteAttribute v name = .error (.frozenDelete name) := by
  unfold deleteAttribute
  rw [if_pos h]

end SelectorForge.Store
