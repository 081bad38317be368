import SelectorForge.Store.Scalar
import SelectorForge.Store.Fault

/-!
# Attributes

What an object answers when it is asked for a name: what is reserved for its kind, one of its
attributes, or a default of its kind. Objects of three kinds are made of declared attributes; two of
these kinds are frozen.

* `entries`   the attributes as entries, with the keys as they are written in a shared table;
* `fields`    the attributes by name.
-/

namespace SelectorForge

namespace Kind

/-- The attributes that a kind declares, in order. -/
def declared? : Kind → Option (List Text)
  | .rectangle => some [Name.width, Name.height]
  | .config => some [Name.separator, Name.pad]
  | .combination => some [Name.left, Name.combinator, Name.right, Name.pad]
  | _ => none

def isFrozen : Kind → Bool
  | .config | .combination => true
  | _ => false

/-- The value of an attribute that an object does not have itself. -/
def default? : Kind → Text → Option Value
  | .config, name =>
    if name = Name.separator then some (.str ".")
    else if name = Name.pad then some (.bool true)
    else none
  | .combination, name => if name = Name.pad then some (.bool true) else none
  | _, _ => none

/-- What belongs to an object by its kind, whatever its attributes are. -/
def reserved? (kind : Kind) (name : Text) : Option Value :=
  if name = Name.weakReferences then some .null
  else match kind with
    | .error _ core =>
      if [Name.cause, Name.context, Name.trace].contains name then
        some ((Fields.get? name core.further).getD .null)
      else if name = Name.hidesContext then
        some ((Fields.get? name core.further).getD (.bool false))
      else none
    | _ => none

/-- The operations that a name leads to. -/
def operations : Kind → List Text
  | .rectangle => [Name.area]
  | .combination => [Name.render]
  | .selector => Stage.all.map Name.ofStage ++ [Name.moveUp, Name.render]
  | _ => []

end Kind

namespace Store

variable (st : Store)

/-! ### tables of attributes -/

/-- The entries of the table at a place; there are none where there is no table. -/
def tableEntries (r : Ref) : List (Value × Value) :=
  match st.node r with
  | .table entries => entries
  | _ => []

def entries : Attributes → List (Value × Value)
  | .own fields => fields.map fun (name, value) => (.str name, value)
  | .shared table => st.tableEntries table

/-- An entry as an attribute; one whose key is no text is none. -/
def named? : Value × Value → Option (Text × Value)
  | (key, value) => (asText? key).map fun name => (name, value)

def fields : Attributes → Fields Value
  | .own fields => fields
  | .shared table => (st.tableEntries table).filterMap named?

theorem entries_own (fields : Fields Value) :
    st.entries (.own fields) = fields.map fun (name, value) => (.str name, value) := rfl

theorem entries_shared (table : Ref) : st.entries (.shared table) = st.tableEntries table := rfl

theorem fields_own (fields : Fields Value) : st.fields (.own fields) = fields := rfl

theorem fields_shared (table : Ref) :
    st.fields (.shared table) = (st.tableEntries table).filterMap named? := rfl

/-- Either way the attributes are the entries whose keys are texts. -/
theorem fields_eq_filterMap_entries (attributes : Attributes) :
    st.fields attributes = (st.entries attributes).filterMap named? := by
  cases attributes with
  | own fields =>
    rw [fields_own, entries_own, List.filterMap_map]
    exact List.filterMap_some.symm
  | shared table => rfl

/-! ### names -/

/-- An attribute of a record of some kind. -/
def recordAttribute (kind : Kind) (attributes : Fields Value) (name : Text) : Except Fault Value :=
  match Fields.get? name attributes with
  | some v => .ok v
  | none =>
    match kind.default? name with
    | some v => .ok v
    | none => .error (.noAttribute kind.name name)

/-- What a member of an enumeration has been given. -/
def givenTo (v : Value) : Fields Value := (st.given.lookup v).getD []

/-- Lets a member of an enumeration have what it is given instead of what it has been given. -/
def give (v : Value) (fields : Fields Value) : Store :=
  { st with given := (v, fields) :: st.given.filter fun (member, _) => member != v }

/-- What a member of an enumeration is made of, and what it has been given. -/
def memberTable (v : Value) : Fields Value := Fields.update (memberFields v) (st.givenTo v)

/-- What a value answers for a name. -/
def lookup (v : Value) (name : Text) : Except Fault Value :=
  let missing := Fault.noAttribute (st.typeName v) name
  match v with
  | .ref r =>
    match st.node r with
    | .record kind attributes =>
      match kind.reserved? name with
      | some v => .ok v
      | none => recordAttribute kind (st.fields attributes) name
    | .point x y =>
      match (if name = Name.x then x else if name = Name.y then y else none) with
      | some v => .ok v
      | none => .error missing
    | _ => .error missing
  | v =>
    match (memberAttribute? v name).or (numberPart? v name) with
    | some v => .ok v
    | none =>
      match (Fields.get? name (st.memberTable v)).or (sibling? v name) with
      | some v => .ok v
      | none => .error (if isStage v ∧ name = Name.weakReferences then .notReferable else missing)

/-- The core of an error. -/
def core? (v : Value) : Option ErrorCore :=
  match v with
  | .ref r =>
    match st.node r with
    | .record (.error _ core) _ => some core
    | _ => none
  | _ => none

/-- The items of the tuple at a place; there are none where there is no tuple. -/
def tupleItems (r : Ref) : List Value :=
  match st.node r with
  | .tuple items => items
  | _ => []

/-- The arguments that an error was made with. -/
def argumentsOf (core : ErrorCore) : List Value :=
  match core.arguments with
  | some r => st.tupleItems r
  | none => []

/-- The table of the attributes of a record and the arguments of an error are answered as a whole:
either it stands in the store or it is made for the answer. -/
inductive Whole
  | standing (r : Ref)
  | made (n : Node)

def wholeTable : Attributes → Whole
  | .own fields => .made (.table (st.entries (.own fields)))
  | .shared table => .standing table

def wholeArguments (core : ErrorCore) : Whole :=
  match core.arguments with
  | some r => .standing r
  | none => .made (.tuple [])

def whole? (v : Value) (name : Text) : Option Whole :=
  match v with
  | .ref r =>
    match st.node r with
    | .record kind attributes =>
      if name = Name.attributeTable then some (st.wholeTable attributes)
      else
        match kind with
        | .error _ core => if name = Name.arguments then some (wholeArguments core) else none
        | _ => none
    | _ => none
  | _ => none

/-- An operation of a kind cannot be called where an attribute of the object hides its name. -/
def checkCallable (attributes : Fields Value) (name : Text) : Except Fault Unit :=
  match Fields.get? name attributes with
  | some v => .error (.notCallable (st.typeName v))
  | none => .ok ()

/-- Calling a name that is no operation of the value. -/
def callMissing {α : Type} (v : Value) (name : Text) : Except Fault α := do
  let found ← st.lookup v name
  .error (.notCallable (st.typeName found))

/-- Whether a name leads to an operation of the value. -/
def isOperation (v : Value) (name : Text) : Bool :=
  match v with
  | .ref r =>
    match st.node r with
    | .record kind attributes =>
      kind.operations.contains name && (Fields.get? name (st.fields attributes)).isNone
    | _ => false
  | _ => false

/-! ### truth and items -/

/-- Nothing, zeros and whatever is empty count as false. -/
def truthy : Value → Bool
  | .null => false
  | .bool b => b
  | .int n => n != 0
  | .float x => !x.isZero
  | .str t => !t.isEmpty
  | .octets bytes => !bytes.isEmpty
  | .stage s => s.ordinal != 0
  | .combinator _ => true
  | .ref r =>
    match st.node r with
    | .list items | .tuple items | .set items => !items.isEmpty
    | .table entries => !entries.isEmpty
    | _ => true

/-- The items that a loop over a value goes through. -/
def items (v : Value) : Except Fault (List Value) :=
  match v with
  | .str t => .ok (t.map fun c => .str [c])
  | .octets bytes => .ok (bytes.map fun b => .int b.toNat)
  | .combinator c => .ok (c.text.map fun c => .str [c])
  | .ref r =>
    match st.node r with
    | .list items | .tuple items | .set items => .ok items
    | .table entries => .ok (entries.map Prod.fst)
    | n => .error (.notIterable n.typeName)
  | v => .error (.notIterable (st.typeName v))

end Store

end SelectorForge
