import SelectorForge.Session.Aspect
import SelectorForge.Session.Recipe
import SelectorForge.Session.Portrait
import SelectorForge.Store.Product

/-!
# Sessions

A session is a list of steps over named values. Every step is answered; a step that fails leaves
the names as they were, and the session goes on.

* `Step`      what can be asked for;
* `Answer`    what a step that succeeds answers;
* `Report`    the answer or the fault of a step, with what was noted on the way;
* `run`       the reports of a list of steps.
-/

namespace SelectorForge.Session

open Effect

inductive Step
  | make (into : Text) (recipe : Recipe)
  | factory (builder : Text) (stage : Stage) (value : Text) (into : Text)
  | append (selector : Text) (stage : Stage) (value : Text) (into : Option Text)
  | combine (builder left : Text) (combinator : CombinatorInput) (right : Text) (into : Text)
  | join (left : Text) (combinator : CombinatorInput) (right : Text) (pad : Bool) (into : Text)
  | state (selector : Text)
  | extendCopy (selector : Text) (property : Text) (item : Text)
  | render (on : Text)
  | plain (on : Text)
  | display (on : Text)
  | area (on : Text)
  | get (on : Text) (name : Text)
  | set (on : Text) (name : Text) (recipe : Recipe)
  | delete (on : Text) (name : Text)
  | equal (on other : Text)
  | toJson (on : Text)

/-- The display is left out for objects that have none worth showing. -/
inductive Answer
  | nothing
  | type (name : Text)
  | portrait (p : Portrait)
  | document (d : Json)
  | shown (type : Text) (display : Option Text)
  | truth (b : Bool)

structure Report where
  outcome : Except Fault Answer
  notes : List Text := []
  /-- The selector after a rejected fragment. -/
  after : Option Portrait := none

/-! ### single steps -/

/-- Objects whose display says nothing but where they are. -/
def isDisplayed (st : Store) : Value → Bool
  | .ref r =>
    match st.node r with
    | .record .fixed _ | .record .builder _ => false
    | _ => true
  | _ => true

def display (v : Value) : Effect Answer := do
  let type ← query fun st => .ok (st.typeName v)
  if ← query fun st => .ok (isDisplayed st v) then
    let t ← query fun st => st.showValue v
    pure (.shown type (some t))
  else pure (.shown type none)

/-- What a name leads to: an aspect of the value or a value of its own. -/
def displayAttribute (v : Value) (name : Text) : Effect Answer := do
  match ← query fun st => .ok (Aspect.ofName? st v name) with
  | some aspect => do
    let t ← query fun st => aspect.shown st v name
    pure (.shown aspect.typeName (some t))
  | none => do display (← get v name)

def named (scope : Scope) (name : Text) : Effect Value :=
  match Fields.get? name scope with
  | some v => pure v
  | none => fail (.unboundName name)

/-- An answer, and the value that the name of the step is bound to, if it has one. -/
def perform (scope : Scope) : Step → Effect (Answer × Option (Text × Value))
  | .make into recipe => do
    let v ← make scope recipe
    let type ← query fun st => .ok (st.typeName v)
    pure (.type type, some (into, v))
  | .factory builder stage value into => do
    let v ← append (← named scope builder) stage value
    pure (.portrait (← portrait v), some (into, v))
  | .append selector stage value into => do
    let v ← append (← named scope selector) stage value
    pure (.portrait (← portrait v), into.map fun name => (name, v))
  | .combine builder left combinator right into => do
    let b ← named scope builder
    checkCombines b
    let l ← named scope left
    let r ← named scope right
    let c ← combine b l combinator.asText r
    pure (.document (← documentOf (← textOf c)), some (into, c))
  | .join left combinator right pad into => do
    let l ← named scope left
    let r ← named scope right
    let c ← combinationOf l combinator.asText r (.bool pad)
    pure (.document (← documentOf (← textOf c)), some (into, c))
  | .state selector => do
    let p ← portrait (← named scope selector)
    pure (.portrait p, none)
  | .extendCopy selector property item => do
    let v ← named scope selector
    let list ← get v property
    change fun st => st.push list (.str item)
    pure (.portrait (← portrait v), none)
  | .render on => do
    let t ← textOf (← named scope on)
    pure (.document (← documentOf t), none)
  | .plain on => do
    let v ← named scope on
    let t ← query fun st => st.plainText v
    pure (.document (.str t), none)
  | .display on => do
    let answer ← display (← named scope on)
    pure (answer, none)
  | .area on => do
    let v ← named scope on
    let product ← transform fun st => st.area v
    pure (← display product, none)
  | .get on name => do
    let answer ← displayAttribute (← named scope on) name
    pure (answer, none)
  | .set on name recipe => do
    let v ← named scope on
    let value ← make scope recipe
    change fun st => st.setAttribute v name value
    pure (.nothing, none)
  | .delete on name => do
    let v ← named scope on
    change fun st => st.deleteAttribute v name
    pure (.nothing, none)
  | .equal on other => do
    let a ← named scope on
    let b ← named scope other
    let e ← query fun st => st.equal a b
    pure (.truth e, none)
  | .toJson on => do
    let v ← named scope on
    let t ← query fun st => st.toJson v
    pure (.document (.str t), none)

/-- The selector of a step that appends, for its portrait after a fault. -/
def appendTarget? (scope : Scope) : Step → Option Value
  | .append selector _ _ _ => Fields.get? selector scope
  | _ => none

def portraitAfter (st : Store) (scope : Scope) (step : Step) : Option Portrait :=
  match appendTarget? scope step with
  | none => none
  | some v =>
    match (portrait v).run { store := st } with
    | (.ok p, _) => some p
    | (.error _, _) => none

/-! ### sessions -/

structure State where
  store : Store := initialStore
  scope : Scope := []

/-- One step, from a state to the next. -/
def next (s : State) (step : Step) : Report × State :=
  match (perform s.scope step).run { store := s.store } with
  | (.ok (answer, binding), w) =>
    let scope := match binding with
      | some (name, v) => Fields.put name v s.scope
      | none => s.scope
    (⟨.ok answer, w.notes, none⟩, ⟨w.store, scope⟩)
  | (.error fault, w) =>
    (⟨.error fault, w.notes, portraitAfter w.store s.scope step⟩, ⟨w.store, s.scope⟩)

def runFrom (s : State) : List Step → List Report × State
  | [] => ([], s)
  | step :: steps =>
    let (report, s) := next s step
    let (reports, s) := runFrom s steps
    (report :: reports, s)

/-- The reports of a session. -/
def run (steps : List Step) : List Report := (runFrom {} steps).1

end Session

end SelectorForge
