import SelectorForge.Store.Assignment
import SelectorForge.Store.Display

/-!
# Effects

What is done to a store, one change after the other. An effect keeps what it has done when it
fails half way, and it leaves notes in the log.
-/

namespace SelectorForge

/-- A store, and what has been noted. -/
structure World where
  store : Store := {}
  notes : List Text := []
deriving DecidableEq, Repr, Inhabited

abbrev Effect (α : Type) := ExceptT Fault (StateM World) α

namespace Effect

variable {α β : Type}

def fail (f : Fault) : Effect α := ExceptT.mk fun w => (.error f, w)

/-- Asks without changing anything. -/
def query (ask : Store → Except Fault α) : Effect α :=
  ExceptT.mk fun w => (ask w.store, w)

def note (t : Text) : Effect Unit :=
  ExceptT.mk fun w => (.ok (), { w with notes := w.notes ++ [t] })

def alloc (n : Node) : Effect Value :=
  ExceptT.mk fun w => (.ok (w.store.alloc n).1, { w with store := (w.store.alloc n).2 })

def assign (r : Ref) (name : Text) (value : Value) : Effect Unit :=
  ExceptT.mk fun w => (.ok (), { w with store := w.store.assign r name value })

/-- A change of the store that takes place only if it succeeds. -/
def transform (change : Store → Except Fault (α × Store)) : Effect α :=
  ExceptT.mk fun w =>
    match change w.store with
    | .ok (a, st) => (.ok a, { w with store := st })
    | .error f => (.error f, w)

/-- A change that answers nothing. -/
def change (f : Store → Except Fault Store) : Effect Unit :=
  transform fun st => (f st).map fun st => ((), st)

/-! ### running -/

theorem run_pure (a : α) (w : World) : (pure a : Effect α).run w = (.ok a, w) := rfl

theorem run_query (ask : Store → Except Fault α) (w : World) :
    (query ask).run w = (ask w.store, w) := rfl

theorem run_note (t : Text) (w : World) :
    (note t).run w = (.ok (), { w with notes := w.notes ++ [t] }) := rfl

theorem run_alloc (n : Node) (w : World) :
    (alloc n).run w = (.ok (w.store.alloc n).1, { w with store := (w.store.alloc n).2 }) := rfl

theorem run_assign (r : Ref) (name : Text) (value : Value) (w : World) :
    (assign r name value).run w = (.ok (), { w with store := w.store.assign r name value }) := rfl

theorem run_transform_ok {f : Store → Except Fault (α × Store)} {w : World} {a : α} {st : Store}
    (h : f w.store = .ok (a, st)) :
    (transform f).run w = (.ok a, { w with store := st }) := by
  simp [transform, h]

theorem run_transform_error {f : Store → Except Fault (α × Store)} {w : World} {e : Fault}
    (h : f w.store = .error e) : (transform f).run w = (.error e, w) := by
  simp [transform, h]

theorem run_change_ok {f : Store → Except Fault Store} {w : World} {st : Store}
    (h : f w.store = .ok st) : (change f).run w = (.ok (), { w with store := st }) :=
  run_transform_ok (by rw [h]; rfl)

theorem run_change_error {f : Store → Except Fault Store} {w : World} {e : Fault}
    (h : f w.store = .error e) : (change f).run w = (.error e, w) :=
  run_transform_error (by rw [h]; rfl)

/-- What has been done before a failure stays done. -/
theorem run_bind (x : Effect α) (f : α → Effect β) (w : World) :
    (x >>= f).run w = match x.run w with
      | (.ok a, w') => (f a).run w'
      | (.error e, w') => (.error e, w') := by
  show (x.run >>= ExceptT.bindCont f) w = _
  show ExceptT.bindCont f (x.run w).1 (x.run w).2 = _
  rcases x.run w with ⟨a | e, w'⟩ <;> rfl

/-! ### reading -/

/-- What a value answers for a property: its own attribute, or a copy of it if it is a list. -/
def getProperty (v : Value) (property hidden : Text) : Effect Value := do
  let found ← query fun st => st.lookup v hidden
  if Store.listProperties.contains property then
    let items ← query fun st => st.items found
    alloc (.list items)
  else pure found

/-- What a value answers for a name that is no property. -/
def getWhole (v : Value) (name : Text) : Effect Value := do
  match ← query fun st => .ok (st.whole? v name) with
  | some (.standing r) => pure (.ref r)
  | some (.made n) => alloc n
  | none => query fun st => st.lookup v name

/-- What a value answers for a name, properties included. -/
def get (v : Value) (name : Text) : Effect Value := do
  match ← query fun st => .ok (st.property? v name) with
  | some hidden => getProperty v name hidden
  | none => getWhole v name

end Effect

end SelectorForge
