import SelectorForge.Json.Basic
import SelectorForge.Json.Literal
import SelectorForge.Number.Shortest

/-!
# Writing documents

The compact text of a document: no blanks, `,` and `:` as separators, everything in ASCII.
-/

namespace SelectorForge.Json

open CodePoint

mutual

def render : Json → Text
  | .null => "null"
  | .bool true => "true"
  | .bool false => "false"
  | .int n => Number.integerText n
  | .float x => x.text Double.serialised
  | .str t => literal t
  | .arr [] => [openBracket, closeBracket]
  | .arr (item :: items) => openBracket :: render item ++ renderItems items
  | .obj [] => [openBrace, closeBrace]
  | .obj ((name, value) :: members) =>
    openBrace :: literal name ++ colon :: render value ++ renderMembers members

/-- What follows the first item of an array. -/
def renderItems : List Json → Text
  | [] => [closeBracket]
  | item :: items => comma :: render item ++ renderItems items

/-- What follows the first member of an object. -/
def renderMembers : List (Text × Json) → Text
  | [] => [closeBrace]
  | (name, value) :: members =>
    comma :: literal name ++ colon :: render value ++ renderMembers members

end

theorem render_str (t : Text) : render (.str t) = literal t := by rw [render]
theorem render_int (n : Int) : render (.int n) = Number.integerText n := by rw [render]
theorem renderItems_nil : renderItems [] = [closeBracket] := by rw [renderItems]
theorem renderMembers_nil : renderMembers [] = [closeBrace] := by rw [renderMembers]

end SelectorForge.Json
