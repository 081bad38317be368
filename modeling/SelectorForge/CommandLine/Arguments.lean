import SelectorForge.Text.Quoted

/-!
# Arguments

Sorting the arguments of a command into flags and positional arguments. Flags have long names
only and take no value; `--` ends them, and a lone `-` is positional.

The program leaves this to an option parser that is no part of it. Assumed of the parser:

* whatever begins with a hyphen is a flag, but for a lone hyphen and what stands behind `--`;
* the flags of a command may stand anywhere in front of `--`, those of the program itself only in
  front of the name of the command;
* a flag is given by its full name, and a value that an equals sign attaches to it is refused;
* an unknown flag ends the reading. It is reported with the name in front of the equals sign, or,
  with a single hyphen, by its first letter. What the parser would suggest instead is left out.
-/

namespace SelectorForge.CommandLine

/-- What is wrong with an argument that looks like a flag. -/
inductive FlagError
  | unknown (name : Text)
  | takesNoValue (name : Text)
deriving DecidableEq, Repr

/-- Flags in the order given, and the other arguments. -/
structure Sorted where
  flags : List Text
  positional : List Text
deriving DecidableEq, Repr

open CodePoint

def endOfFlags : Text := [hyphen, hyphen]

def looksLikeFlag (arg : Text) : Bool := arg.head? == some hyphen && arg != [hyphen]

/-- The name in front of an equals sign, and whether there was one. -/
def flagName (arg : Text) : Text × Bool :=
  match Text.splitAt? equalsSign arg with
  | some (name, _) => (name, true)
  | none => (arg, false)

/-- An unknown name with a single dash is reported by its first letter. -/
def readFlag (known : List Text) (arg : Text) : Except FlagError Text :=
  let (name, hasValue) := flagName arg
  if known.contains name then
    if hasValue then .error (.takesNoValue name) else .ok name
  else if endOfFlags.isPrefixOf arg then .error (.unknown name)
  else .error (.unknown (arg.take 2))

/-- Flags may stand anywhere in front of `--`. -/
def sort (known : List Text) : List Text → Except FlagError Sorted
  | [] => .ok ⟨[], []⟩
  | arg :: rest =>
    if arg = endOfFlags then .ok ⟨[], rest⟩
    else if looksLikeFlag arg then do
      let name ← readFlag known arg
      let s ← sort known rest
      .ok { s with flags := name :: s.flags }
    else do
      let s ← sort known rest
      .ok { s with positional := arg :: s.positional }

/-- Flags stand in front of the first positional argument. -/
def sortLeading (known : List Text) : List Text → Except FlagError Sorted
  | [] => .ok ⟨[], []⟩
  | arg :: rest =>
    if arg = endOfFlags then .ok ⟨[], rest⟩
    else if looksLikeFlag arg then do
      let name ← readFlag known arg
      let s ← sortLeading known rest
      .ok { s with flags := name :: s.flags }
    else .ok ⟨[], arg :: rest⟩

end SelectorForge.CommandLine
