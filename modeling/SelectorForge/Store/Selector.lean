import SelectorForge.Store.Effect

/-!
# Selectors in a store

* `append`    appends a fragment to a selector; to a builder, which makes a new selector first;
* `combine`   joins two operands by their texts at this moment.

A selector is an object like any other, so whatever its attributes are asked for can be something
else than a selector has by itself.
-/

namespace SelectorForge.Effect

/-! ### new objects -/

def newConfig (c : Config) : Effect Value :=
  alloc (.record .config (.own [(Name.separator, .str c.separator), (Name.pad, .bool c.pad)]))

/-- The default configuration stands in for one that counts as false. -/
def configOr (v : Value) : Effect Value := do
  if ← query fun st => .ok (st.truthy v) then pure v else newConfig {}

def newBuilder (config : Value) : Effect Value := do
  let config ← configOr config
  alloc (.record .builder (.own [(Name.config, config)]))

def newSelector (config : Value) : Effect Value := do
  let config ← configOr config
  let classes ← alloc (.list [])
  let attributes ← alloc (.list [])
  let pseudoClasses ← alloc (.list [])
  alloc (.record .selector (.own [
    (Name.ownConfig, config), (Name.ownStage, .null), (Name.ownElement, .null),
    (Name.ownId, .null), (Name.ownClasses, classes), (Name.ownAttributes, attributes),
    (Name.ownPseudoClasses, pseudoClasses), (Name.ownPseudoElement, .null)]))

def newCombination (left combinator right : Value) (pad : Value) : Effect Value :=
  alloc (.record .combination (.own [
    (Name.left, left), (Name.combinator, combinator), (Name.right, right), (Name.pad, pad)]))

/-! ### growing -/

/-- Whether the latest stage of a selector, which may be any value, is after `target`. -/
def isAfter (st : Store) (latest : Value) (target : Stage) : Except Fault Bool :=
  match latest with
  | .null => .ok false
  | .float x => .ok (x.compareInt target.ordinal == some .gt)
  | v =>
    match Store.asInt? v with
    | some n => .ok (decide ((target.ordinal : Int) < n))
    | none => .error (.notComparable (st.typeName v))

/-- Only a stage knows its label, so only for a stage an order violation is noted. -/
def rejectAfter (latest : Value) (target : Stage) : Effect Unit := do
  match latest with
  | .stage s => do
    let r := Rejection.outOfOrder target s
    note r.note
    fail (.rejected r)
  | v => query fun st => st.callMissing v Name.label

/-- Moves the latest stage of a selector up, unless the fragment is to be rejected. -/
def moveUp (r : Ref) (target : Stage) (occupant : Value) : Effect Unit := do
  let latest ← query fun st => st.lookup (.ref r) Name.ownStage
  if ← query fun st => isAfter st latest target then rejectAfter latest target
  else if target.isSingleton ∧ occupant ≠ .null then do
    let rejection := Rejection.duplicate target
    note rejection.note
    fail (.rejected rejection)
  else assign r Name.ownStage (.stage target)

def checkOperation (attributes : Attributes) (name : Text) : Effect Unit :=
  query fun st => st.checkCallable (st.fields attributes) name

/-- Appends a fragment to a selector. -/
def appendTo (r : Ref) (attributes : Attributes) (target : Stage) (value : Text) :
    Effect Unit := do
  checkOperation attributes (Name.ofStage target)
  let occupant ←
    if target.isSingleton then query fun st => st.lookup (.ref r) (Name.slot target)
    else pure .null
  checkOperation attributes Name.moveUp
  moveUp r target occupant
  if target.isSingleton then assign r (Name.slot target) (.str value)
  else do
    let list ← query fun st => st.lookup (.ref r) (Name.slot target)
    change fun st => st.push list (.str value)

/-- Appends to a selector and answers with it. -/
def grow (v : Value) (target : Stage) (value : Text) : Effect Value := do
  let missing : Effect Value := query fun st => st.callMissing v (Name.ofStage target)
  match v with
  | .ref r =>
    match ← query fun st => .ok (st.node r) with
    | .record .selector attributes => do
      appendTo r attributes target value
      pure v
    | _ => missing
  | _ => missing

/-- The configuration of a builder. -/
def builderConfig (attributes : Attributes) : Effect Value :=
  query fun st => Store.recordAttribute .builder (st.fields attributes) Name.config

/-- A new selector that starts with a fragment. -/
def start (attributes : Attributes) (target : Stage) (value : Text) : Effect Value := do
  checkOperation attributes (Name.ofStage target)
  checkOperation attributes Name.fresh
  let config ← builderConfig attributes
  grow (← newSelector config) target value

/-- A builder answers with a new selector. -/
def append (v : Value) (target : Stage) (value : Text) : Effect Value := do
  match v with
  | .ref r =>
    match ← query fun st => .ok (st.node r) with
    | .record .builder attributes => start attributes target value
    | _ => grow v target value
  | v => grow v target value

/-! ### combining -/

def textOf (v : Value) : Effect Value := query fun st => st.renderValue v

/-- A combination of two operands by their texts at this moment. -/
def combinationOf (left : Value) (combinator : Text) (right : Value) (pad : Value) :
    Effect Value := do
  let l ← textOf left
  let r ← textOf right
  newCombination l (.str combinator) r pad

/-- Only a builder combines. Another value is known to fail before its operands are looked for,
unless it has an attribute of that name. -/
def checkCombines (v : Value) : Effect Unit := do
  let isBuilder ← query fun st => .ok (st.isBuilder v)
  if isBuilder then pure ()
  else
    let _ ← query fun st => st.lookup v Name.combine
    pure ()

/-- A combination that is padded as the configuration of the builder says. -/
def combine (builder left : Value) (combinator : Text) (right : Value) : Effect Value := do
  let missing : Effect Value := query fun st => st.callMissing builder Name.combine
  match builder with
  | .ref b =>
    match ← query fun st => .ok (st.node b) with
    | .record .builder attributes => do
      checkOperation attributes Name.combine
      let config ← builderConfig attributes
      let pad ← query fun st => st.lookup config Name.pad
      let c ← combinationOf left combinator right pad
      let l ← query fun st => do st.showValue (← st.lookup c Name.left)
      let r ← query fun st => do st.showValue (← st.lookup c Name.right)
      note (("Combined " : Text) ++ l ++ (" " : Text) ++ combinator.quoted ++ (" " : Text) ++ r)
      pure c
    | _ => missing
  | _ => missing

end SelectorForge.Effect
