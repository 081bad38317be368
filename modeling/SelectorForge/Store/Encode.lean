import SelectorForge.Store.Opening

/-!
# Values as documents

The document of a value: a record is the object of its attributes in the order in which they were
assigned, a table the object of its entries, a list or a tuple the array of its items. The way
from the root is remembered, so that a container or an object which holds itself is found out, and
one that is held twice is not.

An object with two places has no attributes of its own. It is laid open first, and the document is
that of the table it becomes.

Without such objects the way passes a node of the store at most once, so `encodeFuel` allows for all
steps of it. Only laying open can go on without end, and this ends in `Fault.tooDeep`. A machine on
which calls can be nested only so deep gives up on every value that is nested deeper; this bound can
be set from outside, and it is left out.
-/

namespace SelectorForge.Store

/-! ### scalars and keys -/

def encodeInt (n : Int) : Except Fault Json :=
  if Number.FitsDigits n then .ok (.int n) else .error .tooManyDigits

def encodeScalar : Value → Except Fault Json
  | .null => .ok .null
  | .bool b => .ok (.bool b)
  | .int n => encodeInt n
  | .float x => .ok (.float x)
  | .str t => .ok (.str t)
  | .octets _ => .error (.notSerialisable "bytes")
  | .stage s => .ok (.int s.ordinal)
  | .combinator c => .ok (.str c.text)
  | .ref _ => .error .tooDeep

/-- The member name that a key becomes. -/
def keyText (st : Store) : Value → Except Fault Text
  | .null => .ok "null"
  | .bool true => .ok "true"
  | .bool false => .ok "false"
  | .int n =>
    if Number.FitsDigits n then .ok (Number.integerText n) else .error .tooManyDigits
  | .float x => .ok (x.text Double.serialised)
  | .str t => .ok t
  | .stage s => .ok (Number.naturalText s.ordinal)
  | .combinator c => .ok c.text
  | v => .error (.badKey (st.typeName v))

/-! ### encoding -/

/-- Keys and values in turn. -/
def encodeEntries (st : Store) (encoded : Value → Except Fault Json)
    (entries : List (Value × Value)) : Except Fault (Fields Json) :=
  entries.mapM fun (key, value) => do
    let name ← st.keyText key
    let document ← encoded value
    .ok (name, document)

/-- The document of a value at the end of a path. -/
def encode : Nat → Store → List Ref → Value → Except Fault Json
  | 0, _, _, _ => .error .tooDeep
  | fuel + 1, st, path, v =>
    match v with
    | .ref r =>
      match st.node r with
      | .list items | .tuple items =>
        if items.isEmpty then .ok (.arr [])
        else if r ∈ path then .error .circular
        else (items.mapM (encode fuel st (r :: path))).map .arr
      | .table entries =>
        if entries.isEmpty then .ok (.obj [])
        else if r ∈ path then .error .circular
        else (encodeEntries st (encode fuel st (r :: path)) entries).map .obj
      | .record _ attributes =>
        if r ∈ path then .error .circular
        else
          (encodeEntries st (encode fuel st (r :: path)) (st.entries attributes)).map .obj
      | .point _ _ =>
        if r ∈ path then .error .circular
        else do
          let (table, st) ← st.opened v
          encode fuel st (r :: path) table
      | n => .error (.notSerialisable n.typeName)
    | v => encodeScalar v

/-- One step for each node on a path, on which a node of the store stands at most once and an
object with two places is followed by what it has become. -/
def encodeFuel (st : Store) : Nat := 2 * st.size + 2

def toDocument (st : Store) (v : Value) : Except Fault Json := encode st.encodeFuel st [] v

/-- The JSON text of a value. -/
def toJson (st : Store) (v : Value) : Except Fault Text := (st.toDocument v).map Json.render

end SelectorForge.Store
