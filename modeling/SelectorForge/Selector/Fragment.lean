import SelectorForge.Selector.Compound

/-!
# Fragments

A fragment is written as a word `kind=value`. The words of a list are read and appended one after
the other; the first word that cannot be read, or whose fragment is rejected, decides.
-/

namespace SelectorForge

structure Fragment where
  stage : Stage
  value : Text
deriving DecidableEq, Repr

namespace Fragment

/-- Why a word is no fragment. -/
inductive Error
  | missingEquals (word : Text)
  | unknownKind (kind : Text)
deriving DecidableEq, Repr

def Error.message : Error → Text
  | .missingEquals word => ("Expected kind=value, got " : Text) ++ word.quoted
  | .unknownKind kind => ("Unknown fragment kind: " : Text) ++ kind.quoted

open CodePoint (equalsSign)

/-- The stage of a name, as the reading of fragments reports it. -/
def stageOf (kind : Text) : Except Error Stage :=
  match Stage.ofName? kind with
  | some stage => .ok stage
  | none => .error (.unknownKind kind)

/-- The kind ends at the first equals sign; the value may hold further ones. -/
def parse (word : Text) : Except Error Fragment :=
  match Text.splitAt? equalsSign word with
  | none => .error (.missingEquals word)
  | some (kind, value) => (stageOf kind).map fun stage => ⟨stage, value⟩

/-- The word of a fragment, with the label of its stage. -/
def word (f : Fragment) : Text := f.stage.label ++ equalsSign :: f.value

end Fragment

/-- Why a list of words is no selector. -/
inductive BuildError
  | malformed (error : Fragment.Error)
  | rejected (rejection : Rejection)
deriving DecidableEq, Repr

def BuildError.message : BuildError → Text
  | .malformed error => error.message
  | .rejected rejection => rejection.message

/-- The log of a failed attempt: only a rejected fragment is noted. -/
def BuildError.notes : BuildError → List Text
  | .malformed _ => []
  | .rejected rejection => [rejection.note]

namespace Compound

/-- Appends the fragment of a word. -/
def appendWord (s : Compound) (word : Text) : Except BuildError Compound := do
  let f ← (Fragment.parse word).mapError .malformed
  (s.append f.stage f.value).mapError .rejected

def appendWords (s : Compound) (words : List Text) : Except BuildError Compound :=
  words.foldlM appendWord s

/-- The selector of a list of words. -/
def build (config : Config) (words : List Text) : Except BuildError Compound :=
  (empty config).appendWords words

theorem build_nil (config : Config) : build config [] = .ok (empty config) := rfl

end Compound

end SelectorForge
