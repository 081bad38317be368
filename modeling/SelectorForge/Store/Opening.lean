import SelectorForge.Store.Copy

/-!
# Laying objects open

An object with declared attributes is laid open as a table of them, and so are the objects with
declared attributes in its lists, tuples and tables. Everything else in it is copied as it is.
-/

namespace SelectorForge.Store

variable (st : Store)

/-- The attributes that an object declares; nothing for an object that declares none. -/
def declared? : Node → Option (List Text)
  | .record kind _ => kind.declared?
  | .point _ _ => some [Name.x, Name.y]
  | _ => none

/-- The values of a table of declarations; only a table has such. -/
def declarations (v : Value) : Except Fault (List Value) :=
  match v with
  | .ref r =>
    match st.node r with
    | .table entries => .ok (entries.map Prod.snd)
    | _ => st.callMissing v Name.values
  | _ => st.callMissing v Name.values

/-- The attributes that are laid open. An attribute in the place of the declarations is asked for
them; whatever it lists declares nothing. -/
def openNames (names : List Text) (v : Value) : Except Fault (List Text) :=
  match st.lookup v Name.declaredTable with
  | .error _ => .ok names
  | .ok table => do
    let listed ← st.declarations table
    listed.forM fun declaration => do
      let _ ← st.lookup declaration Name.role
    .ok []

/-- A state of the store in which something may fail. -/
abbrev Opening (α : Type) := StateT Store (Except Fault) α

namespace Opening

def ask {α : Type} (question : Store → Except Fault α) : Opening α := do question (← get)

def place (n : Node) : Opening Value := do
  let st ← get
  set (st.alloc n).2
  pure (st.alloc n).1

end Opening

open Opening

/-- A value laid open; `fuel` bounds the depth down to the objects that are copied. -/
def layOpen : Nat → Value → Opening Value
  | 0, _ => throw .tooDeep
  | fuel + 1, v =>
    match v with
    | .ref r => do
      match ← ask fun st => .ok (st.node r) with
      | .list items => place (.list (← items.mapM (layOpen fuel)))
      | .tuple items => place (.tuple (← items.mapM (layOpen fuel)))
      | .table entries => do
        let entries ← entries.mapM fun (key, value) => do
          let key ← layOpen fuel key
          let value ← layOpen fuel value
          ask fun st => checkKey st (st.size + 1) key
          pure (key, value)
        place (.table entries)
      | n =>
        match declared? n with
        | some names => do
          let names ← ask fun st => st.openNames names v
          let entries ← names.mapM fun name => do
            let value ← layOpen fuel (← ask fun st => st.lookup v name)
            pure (.str name, value)
          place (.table entries)
        | none => fun st => st.copy v
    | v => pure v

/-- An object laid open, and the store with what it has become. -/
def opened (v : Value) : Except Fault (Value × Store) := (layOpen (st.size + 1) v).run st

end SelectorForge.Store
