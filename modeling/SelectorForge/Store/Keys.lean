import SelectorForge.Store.Equality

/-!
# Keys

What can be a key of a table or a member of a set, and how tables and sets take them in. Equal keys
are one key.
-/

namespace SelectorForge.Store

/-- Whether a value can be a key of a table or a member of a set. -/
def checkKey (st : Store) : Nat → Value → Except Fault Unit
  | 0, _ => .error .tooDeep
  | fuel + 1, .ref r =>
    match st.node r with
    | .tuple items => items.forM (checkKey st fuel)
    | .list _ | .set _ | .table _ | .point _ _ => .error (.unhashable (st.node r).typeName)
    | .record kind _ =>
      match kind.declared? with
      | some names =>
        if kind.isFrozen then do
          let values ← names.mapM (st.lookup (.ref r))
          values.forM (checkKey st fuel)
        else .error (.unhashable kind.name)
      | none => .ok ()
    | .sealed => .ok ()
  | _ + 1, _ => .ok ()

def keysEqual (st : Store) (a b : Value) : Except Fault Bool :=
  equalWithin st (2 * st.size + 2) a b

/-- A known key keeps its place and its spelling and takes the new value. -/
def putEntry (st : Store) (key value : Value) :
    List (Value × Value) → Except Fault (List (Value × Value))
  | [] => .ok [(key, value)]
  | (k, v) :: rest => do
    if ← keysEqual st k key then .ok ((k, value) :: rest)
    else
      let rest ← putEntry st key value rest
      .ok ((k, v) :: rest)

/-- A table with one more entry. -/
def insertEntry (st : Store) (entries : List (Value × Value)) (key value : Value) :
    Except Fault (List (Value × Value)) := do
  checkKey st (st.size + 1) key
  putEntry st key value entries

/-- The members with one more; a known member stays as it is. -/
def insertMember (st : Store) (members : List Value) (value : Value) :
    Except Fault (List Value) := do
  checkKey st (st.size + 1) value
  if ← members.anyM fun member => keysEqual st value member then .ok members
  else .ok (members ++ [value])

end SelectorForge.Store
