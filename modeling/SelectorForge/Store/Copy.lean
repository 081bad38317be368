import SelectorForge.Store.Keys
import SelectorForge.Store.Assignment

/-!
# Copies

A copy of a value with everything that can be reached from it. What is held twice is copied once,
and a value that holds itself becomes a copy that holds itself. Scalars are their own copies.

The copy of an object that shares a table does not share the copy of the table: it has the entries
that the copy of the table has at that time. An error is not copied attribute by attribute: it is
made once more from its arguments, and then the attributes are assigned to the new error one after
the other.
-/

namespace SelectorForge.Store

/-- The store with the copies, and which of its nodes have been copied. -/
structure Copies where
  store : Store
  made : List (Ref × Value) := []

abbrev Copying (α : Type) := StateT Copies (Except Fault) α

/-! ### errors -/

variable (st : Store)

/-- The message of an error made from arguments, of which the first is its message; two kinds of
errors bring a message of their own. -/
def errorMessage (kind : ErrorKind) (arguments : List Value) : Except Fault Value :=
  match arguments, kind with
  | [], .general => .error (.messageMissing kind.name)
  | [], .order => .ok (.str Rejection.orderMessage)
  | [], .duplicate => .ok (.str Rejection.duplicateMessage)
  | [message], _ => .ok message
  | arguments, kind =>
    .error (.argumentsLeft kind.name (kind != .general) arguments.length)

/-- An error made from arguments, and the store with it. -/
def newError (kind : ErrorKind) (arguments : List Value) (stage : Value) :
    Except Fault (Value × Store) := do
  let message ← errorMessage kind arguments
  let core : ErrorCore := { arguments := some st.size }
  let st := (st.alloc (.tuple [message])).2
  .ok (st.alloc (.record (.error kind core) (.own [(Name.stage, stage)])))

/-! ### hooks -/

/-- An object whose attributes hide what takes part in copying cannot be copied: the attribute is
called, and no attribute can be called. One that is nothing makes way for an older hook. -/
def checkCopyable (kind : Kind) (attributes : Fields Value) : Except Fault Unit := do
  let isError := match kind with
    | .error _ _ => true
    | _ => false
  match Fields.get? Name.copyHook attributes with
  | none | some .null => pure ()
  | some v => .error (.notCallable (st.typeName v))
  match Fields.get? Name.partsHook attributes with
  | none =>
    st.checkCallable attributes (if isError then Name.olderPartsHook else Name.stateHook)
  | some .null =>
    if Fields.get? Name.olderPartsHook attributes = some .null then
      .error (.notCopyable kind.name)
    st.checkCallable attributes Name.olderPartsHook
    if !isError then
      if ((Fields.get? Name.places attributes).map st.truthy).getD false then
        .error .placesWithoutState
      st.checkCallable attributes Name.stateHook
  | some v => .error (.notCallable (st.typeName v))

/-! ### copying -/

namespace Copying

def ask {α : Type} (question : Store → Except Fault α) : Copying α := do
  question (← get).store

def change {α : Type} (step : Store → Except Fault (α × Store)) : Copying α := do
  let (a, st) ← ask step
  modify fun c => { c with store := st }
  pure a

/-- Remembers the copy of `r`. -/
def remember (r : Ref) (copy : Value) : Copying Unit :=
  modify fun c => { c with made := (r, copy) :: c.made }

/-- A new node, as the copy of `r`. -/
def reserve (r : Ref) (n : Node) : Copying Ref := do
  let place := (← get).store.size
  let copy ← change fun st => .ok (st.alloc n)
  remember r copy
  pure place

/-- Fills a node that stands for a copy. -/
def fill (r : Ref) (n : Node) : Copying Unit :=
  change fun st => .ok ((), st.write r n)

/-- The copy of `r`, unless it has been made on the way to it. -/
def finish (r : Ref) (n : Node) : Copying Value := do
  match (← get).made.lookup r with
  | some v => pure v
  | none => pure (.ref (← reserve r n))

/-- The items of the list at a place; there are none where there is no list. -/
def listItems (st : Store) (r : Ref) : List Value :=
  match st.node r with
  | .list items => items
  | _ => []

/-- One more item for the list at a place. -/
def addItem (r : Ref) (item : Value) : Copying Unit := do
  fill r (.list ((← ask fun st => .ok (listItems st r)) ++ [item]))

/-- One more entry for the table at a place. -/
def addEntry (r : Ref) (key value : Value) : Copying Unit := do
  fill r (.table ((← ask fun st => .ok (st.tableEntries r)) ++ [(key, value)]))

/-- Attributes that are these entries. They need a table where not every key is a name. -/
def keep (entries : List (Value × Value)) : Copying Attributes := do
  let named := entries.mapM fun (key, value) =>
    match key with
    | .str name => some (name, value)
    | _ => none
  match named with
  | some fields => pure (.own fields)
  | none => do
    let table := (← get).store.size
    let _ ← change fun st => .ok (st.alloc (.table entries))
    pure (.shared table)

/-- Assigns all entries to an object, so every key has to be a text. -/
def assignAll (v : Value) (entries : List (Value × Value)) : Copying Unit :=
  entries.forM fun (key, value) => change fun st =>
    match asText? key with
    | some name => (st.setAttribute v name value).map fun st => ((), st)
    | none => .error (.nameNotText (st.typeName key))

end Copying

open Copying

/-- The copy of a value; `fuel` bounds the length of the way. -/
def copyValue : Nat → Value → Copying Value
  | 0, _ => throw .tooDeep
  | fuel + 1, v =>
    match v with
    | .ref r => do
      match (← get).made.lookup r with
      | some copy => pure copy
      | none =>
        match ← ask fun st => .ok (st.node r) with
        | .list items => do
          let copy ← reserve r (.list [])
          items.forM fun item => do
            let item ← copyValue fuel item
            addItem copy item
          pure (.ref copy)
        | .tuple items => do finish r (.tuple (← items.mapM (copyValue fuel)))
        | .set items => do finish r (.set (← items.mapM (copyValue fuel)))
        | .table entries => do
          let copy ← reserve r (.table [])
          entries.forM fun (key, value) => do
            let value ← copyValue fuel value
            let key ← copyValue fuel key
            addEntry copy key value
          pure (.ref copy)
        | .point x y => do
          let copy ← reserve r (.point none none)
          let x ← x.mapM (copyValue fuel)
          let y ← y.mapM (copyValue fuel)
          fill copy (.point x y)
          pure (.ref copy)
        | .sealed => finish r .sealed
        | .record kind attributes => do
          ask fun st => st.checkCopyable kind (st.fields attributes)
          let copyEntries : Copying (List (Value × Value)) :=
            match attributes with
            | .own fields => fields.mapM fun (name, value) => do
              pure (.str name, ← copyValue fuel value)
            | .shared table => do
              match ← copyValue fuel (.ref table) with
              | .ref copy => ask fun st => .ok (st.tableEntries copy)
              | _ => pure []
          match kind with
          | .error k core => do
            let arguments ← ask fun st => .ok (st.argumentsOf core)
            let arguments ← arguments.mapM (copyValue fuel)
            let copy ← change fun st => st.newError k arguments .null
            remember r copy
            assignAll copy (← copyEntries)
            pure copy
          | kind => do
            let copy ← reserve r (.record kind (.own []))
            let attributes ← keep (← copyEntries)
            fill copy (.record kind attributes)
            pure (.ref copy)
    | v => pure v

/-- Between two nodes that are remembered before their parts are copied there are at most as many
steps as there are nodes. -/
def copyFuel : Nat := (st.size + 1) * (st.size + 1) + 1

/-- A copy of a value, and the store with it. -/
def copy (v : Value) : Except Fault (Value × Store) :=
  ((copyValue st.copyFuel v).run ⟨st, []⟩).map fun (copy, c) => (copy, c.store)

end SelectorForge.Store
