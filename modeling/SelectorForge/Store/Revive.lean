import SelectorForge.Store.Attribute
import SelectorForge.Json.Reader

/-!
# Reviving objects

The members of a JSON object become the attributes of a new object, unchanged and in order. A
template only says of which kind the object is.
-/

namespace SelectorForge

/-- What kind of object is to be revived. Only records have a table of attributes. -/
inductive Template
  | record (kind : Kind)
  | bare
  | enumeration
deriving DecidableEq, Repr

namespace Store

mutual

/-- The value of a document: each array and object becomes a new node. -/
def load : Json → Store → Value × Store
  | .null, st => (.null, st)
  | .bool b, st => (.bool b, st)
  | .int n, st => (.int n, st)
  | .float x, st => (.float x, st)
  | .str t, st => (.str t, st)
  | .arr items, st =>
    let (values, st) := loadItems items st
    st.alloc (.list values)
  | .obj members, st =>
    let (fields, st) := loadMembers members st
    st.alloc (.table (fields.map fun (name, v) => (.str name, v)))

def loadItems : List Json → Store → List Value × Store
  | [], st => ([], st)
  | item :: items, st =>
    let (v, st) := load item st
    let (vs, st) := loadItems items st
    (v :: vs, st)

def loadMembers : List (Text × Json) → Store → Fields Value × Store
  | [], st => ([], st)
  | (name, value) :: members, st =>
    let (v, st) := load value st
    let (vs, st) := loadMembers members st
    ((name, v) :: vs, st)

end

/-- The value of a JSON text. -/
def loadText (st : Store) (t : Text) : Except Fault (Value × Store) :=
  match Json.ofText t with
  | .ok document => .ok (load document st)
  | .error e => .error (.unreadable e)

def templateOf (st : Store) : Value → Template
  | .stage _ | .combinator _ => .enumeration
  | .ref r =>
    match st.node r with
    | .record (.error kind _) _ => .record (.error kind {})
    | .record kind _ => .record kind
    | _ => .bare
  | _ => .bare

/-- A new object of the kind of a template, with the members of a JSON text. -/
def revive (st : Store) (template : Template) (t : Text) : Except Fault (Value × Store) :=
  match Json.ofText t with
  | .error e => .error (.unreadable e)
  | .ok (.obj members) =>
    match template with
    | .record kind =>
      let (fields, st) := loadMembers members st
      .ok (st.alloc (.record kind (.own fields)))
    | .bare => .error .noAttributeTable
    | .enumeration => .error .templateNeedsValue
  | .ok document => .error (.notAnObject document.kindName)

end Store

end SelectorForge
