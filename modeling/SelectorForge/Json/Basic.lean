import SelectorForge.Json.Fields
import SelectorForge.Number.Double

/-!
# JSON documents

The tree that a JSON text stands for. Integers and floating point numbers are apart, and the
members of an object keep their order; a document that is to be written may hold a name twice.
-/

namespace SelectorForge

inductive Json
  | null
  | bool (b : Bool)
  | int (n : Int)
  | float (x : Double)
  | str (t : Text)
  | arr (items : List Json)
  | obj (members : List (Text × Json))
deriving Repr, Inhabited

namespace Json

def ofString (s : String) : Json := .str (Text.ofString s)

/-- The value of a member; nothing for a document that is no object. -/
def member? (name : Text) : Json → Option Json
  | .obj members => Fields.get? name members
  | _ => none

def text? : Json → Option Text
  | .str t => some t
  | _ => none

def bool? : Json → Option Bool
  | .bool b => some b
  | _ => none

def items? : Json → Option (List Json)
  | .arr items => some items
  | _ => none

/-- The kind of a document as messages name it. -/
def kindName : Json → Text
  | .null => "NoneType"
  | .bool _ => "bool"
  | .int _ => "int"
  | .float _ => "float"
  | .str _ => "str"
  | .arr _ => "list"
  | .obj _ => "dict"

end Json

end SelectorForge
