import SelectorForge.Store.Selector
import SelectorForge.Store.Copy
import SelectorForge.Store.Members
import SelectorForge.Store.Revive

/-!
# Recipes

A recipe says how a value is made: from a JSON text, from the value of a name, from parts with
recipes of their own. Its parts are made from left to right, and the first fault ends it.
-/

namespace SelectorForge

/-- The names of a session. -/
abbrev Scope := Fields Value

/-- A combinator as it is given to an operation. -/
inductive CombinatorInput
  | text (t : Text)
  | member (c : Combinator)
deriving DecidableEq, Repr

namespace CombinatorInput

def asText : CombinatorInput → Text
  | .text t => t
  | .member c => c.text

def value : CombinatorInput → Value
  | .text t => .str t
  | .member c => .combinator c

end CombinatorInput

inductive Recipe
  | document (text : Text)
  | variable (name : Text)
  | list (items : List Recipe)
  | tuple (items : List Recipe)
  | set (items : List Recipe)
  | table (entries : List (Recipe × Recipe))
  | octets (bytes : List UInt8)
  | plain (attributes : List (Text × Recipe))
  | sealed
  | point (x y : Recipe)
  | fixed (text : Text)
  | rectangle (width height : Recipe)
  | stage (s : Stage)
  | combinator (c : Combinator)
  | config (c : Config)
  | builder (config : Option Config)
  | standardBuilder
  | selector (config : Option Config)
  | combination (left : Text) (combinator : CombinatorInput) (right : Text) (pad : Bool)
  | error (kind : ErrorKind) (message : Option Text) (stage : Option Stage)
  | revived (template : Template) (text : Text)
  | revivedLike (template : Recipe) (text : Text)

namespace Session

open Effect

/-- The builder that every session starts with. -/
def standardBuilderRef : Ref := 1

/-- A store with the standard builder and its configuration. -/
def initialStore : Store :=
  { nodes := #[
      .record .config (.own [(Name.separator, .str ({} : Config).separator),
        (Name.pad, .bool ({} : Config).pad)]),
      .record .builder (.own [(Name.config, .ref 0)])] }

def configValue : Option Config → Effect Value
  | some c => newConfig c
  | none => pure .null

mutual

def make (scope : Scope) : Recipe → Effect Value
  | .document t => transform fun st => st.loadText t
  | .variable name =>
    match Fields.get? name scope with
    | some v => pure v
    | none => fail (.unboundName name)
  | .list items => do alloc (.list (← makeAll scope items))
  | .tuple items => do alloc (.tuple (← makeAll scope items))
  | .set items => do
    let members ← makeMembers scope [] items
    alloc (.set (← query fun st => .ok (st.orderedMembers members)))
  | .table entries => do alloc (.table (← makeEntries scope [] entries))
  | .octets bytes => pure (.octets bytes)
  | .plain attributes => do
    let fields ← makeFields scope attributes
    alloc (.record .plain (.own (Fields.collapse fields)))
  | .sealed => alloc .sealed
  | .point x y => do
    let x ← make scope x
    let y ← make scope y
    alloc (.point (some x) (some y))
  | .fixed t => alloc (.record .fixed (.own [(Name.text, .str t)]))
  | .rectangle width height => do
    let width ← make scope width
    let height ← make scope height
    alloc (.record .rectangle (.own [(Name.width, width), (Name.height, height)]))
  | .stage s => pure (.stage s)
  | .combinator c => pure (.combinator c)
  | .config c => newConfig c
  | .builder config => do newBuilder (← configValue config)
  | .standardBuilder => pure (.ref standardBuilderRef)
  | .selector config => do newSelector (← configValue config)
  | .combination left combinator right pad =>
    newCombination (.str left) combinator.value (.str right) (.bool pad)
  | .error kind message stage => do
    let arguments := (message.map Value.str).toList
    transform fun st => st.newError kind arguments ((stage.map Value.stage).getD .null)
  | .revived template t => transform fun st => st.revive template t
  | .revivedLike template t => do
    let v ← make scope template
    transform fun st => st.revive (st.templateOf v) t

def makeAll (scope : Scope) : List Recipe → Effect (List Value)
  | [] => pure []
  | recipe :: recipes => do
    let v ← make scope recipe
    let vs ← makeAll scope recipes
    pure (v :: vs)

/-- The members so far, with those of the recipes: each is taken in before the next is made. -/
def makeMembers (scope : Scope) (members : List Value) : List Recipe → Effect (List Value)
  | [] => pure members
  | recipe :: recipes => do
    let v ← make scope recipe
    let members ← query fun st => st.insertMember members v
    makeMembers scope members recipes

/-- The entries so far, with those of the recipes: each is taken in before the next is made. -/
def makeEntries (scope : Scope) (entries : List (Value × Value)) :
    List (Recipe × Recipe) → Effect (List (Value × Value))
  | [] => pure entries
  | (key, value) :: recipes => do
    let k ← make scope key
    let v ← make scope value
    let entries ← query fun st => st.insertEntry entries k v
    makeEntries scope entries recipes

def makeFields (scope : Scope) : List (Text × Recipe) → Effect (Fields Value)
  | [] => pure []
  | (name, value) :: fields => do
    let v ← make scope value
    let rest ← makeFields scope fields
    pure ((name, v) :: rest)

end

end Session

end SelectorForge
