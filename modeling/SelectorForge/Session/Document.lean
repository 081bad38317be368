import SelectorForge.Session.Recipe
import SelectorForge.Store.Encode

/-!
# Documents of recipes

Single questions about one value, outside a session.
-/

namespace SelectorForge.Session

open Effect

/-- What an effect answers in a fresh session. -/
def answer {α : Type} (effect : Effect α) : Except Fault α :=
  (effect.run { store := initialStore }).1

/-- The JSON text of the value of a recipe. -/
def jsonOf (recipe : Recipe) : Except Fault Text := answer do
  let v ← make [] recipe
  query fun st => st.toJson v

/-- The display of the value of a recipe. -/
def displayOf (recipe : Recipe) : Except Fault Text := answer do
  let v ← make [] recipe
  query fun st => st.showValue v

/-- The kind and the JSON text of a revived object. -/
def revivedOf (template : Template) (t : Text) : Except Fault (Text × Text) := answer do
  let v ← transform fun st => st.revive template t
  let type ← query fun st => .ok (st.typeName v)
  let json ← query fun st => st.toJson v
  pure (type, json)

end SelectorForge.Session
