import SelectorForge.Store.Selector
import SelectorForge.Store.Encode

/-!
# Portraits

All that a selector tells about itself: its latest stage, the values of its properties, its text.
A selector of a store is asked for them one after the other, and the first fault ends it.
-/

namespace SelectorForge

namespace Session

open Effect

/-- A selector as it answers for itself. -/
structure Portrait where
  stage : Option Text
  element : Json
  id : Json
  classes : List Json
  attributes : List Json
  pseudoClasses : List Json
  pseudoElement : Json
  text : Json

/-- The name of the latest stage of a selector, which has to be a stage. -/
def stageName (v : Value) : Effect (Option Text) :=
  match v with
  | .null => pure none
  | v => do
    match ← query fun st => st.lookup v Name.name with
    | .str t => pure (some t)
    | _ => pure none

/-- A value as it stands in an answer. -/
def documentOf (v : Value) : Effect Json := query fun st => st.toDocument v

def documentsOf (v : Value) : Effect (List Json) := do
  let items ← query fun st => st.items v
  query fun st => items.mapM st.toDocument

def portrait (v : Value) : Effect Portrait := do
  let stage ← stageName (← get v Name.stage)
  let element ← documentOf (← get v Name.elementName)
  let id ← documentOf (← get v Name.idName)
  let classes ← documentsOf (← get v Name.classNames)
  let attributes ← documentsOf (← get v Name.attributes)
  let pseudoClasses ← documentsOf (← get v Name.pseudoClasses)
  let pseudoElement ← documentOf (← get v Name.pseudoElementName)
  let text ← documentOf (← textOf v)
  pure ⟨stage, element, id, classes, attributes, pseudoClasses, pseudoElement, text⟩

end Session

namespace Compound

/-- The portrait of a selector outside any session. -/
def portrait (s : Compound) : Session.Portrait :=
  let optional (t : Option Text) : Json := (t.map Json.str).getD .null
  ⟨s.stage.map Stage.memberName, optional s.element, optional s.id, s.classes.map .str,
    s.attributes.map .str, s.pseudoClasses.map .str, optional s.pseudoElement, .str s.render⟩

end Compound

end SelectorForge
