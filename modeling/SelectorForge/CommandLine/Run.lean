import SelectorForge.CommandLine.Usage
import SelectorForge.Selector.Builder
import SelectorForge.Selector.Fragment
import SelectorForge.Text.Alphanumeric
import SelectorForge.Text.Words

/-!
# Commands

* `build`     prints the selector of its fragments;
* `combine`   splits its two operands into words, builds both, the left one first, and prints
              their combination.

A failure of an operand ends the run with one line on the second output.
-/

namespace SelectorForge.CommandLine

/-! ### the two commands -/

def configOf (normalized : Bool) : Config := if normalized then .normalized else {}

/-- Why an operand is no selector. -/
inductive OperandError
  | words (error : Text.WordError)
  | fragments (error : BuildError)
deriving DecidableEq, Repr

def OperandError.message : OperandError → Text
  | .words error => error.message
  | .fragments error => error.message

/-- The selector of an operand in one text. -/
def operand (config : Config) (line : Text) : Except OperandError Compound := do
  let words ← (Text.words line).mapError .words
  (Compound.build config words).mapError .fragments

def build (config : Config) (fragments : List Text) : Outcome :=
  match Compound.build config fragments with
  | .ok s => .line s.render
  | .error e => .failure e.message

/-- The combination of two operands. -/
def combination (config : Config) (left combinator right : Text) :
    Except OperandError Combination := do
  let l ← operand config left
  let r ← operand config right
  .ok ((Builder.mk config).combine l combinator r)

def combine (config : Config) (left combinator right : Text) : Outcome :=
  match combination config left combinator right with
  | .ok c => .line c.render
  | .error e => .failure e.message

/-! ### dispatch -/

def helpFlag : Text := "--help"
def versionFlag : Text := "--version"
def normalizedFlag : Text := "--normalized"

def commandFlags : List Text := [normalizedFlag, helpFlag]
def topFlags : List Text := [versionFlag, helpFlag]

def runBuild (args : List Text) : Outcome :=
  match sort commandFlags args with
  | .error e => (UsageError.flag e).outcome .build
  | .ok s =>
    if s.flags.contains helpFlag then Command.build.help
    else match s.positional with
      | [] => (UsageError.missingArgument "FRAGMENTS...").outcome .build
      | fragments => build (configOf (s.flags.contains normalizedFlag)) fragments

def runCombine (args : List Text) : Outcome :=
  match sort commandFlags args with
  | .error e => (UsageError.flag e).outcome .combine
  | .ok s =>
    if s.flags.contains helpFlag then Command.combine.help
    else match s.positional with
      | [] => (UsageError.missingArgument "LEFT").outcome .combine
      | [_] => (UsageError.missingArgument "COMBINATOR").outcome .combine
      | [_, _] => (UsageError.missingArgument "RIGHT").outcome .combine
      | [left, combinator, right] =>
        combine (configOf (s.flags.contains normalizedFlag)) left combinator right
      | _ :: _ :: _ :: extra => (UsageError.extraArguments extra).outcome .combine

/-- The first of the flags of the program itself answers. -/
def answerFlag (name : Text) : Outcome :=
  if name = versionFlag then versionOutcome else Command.top.help

/-- A name that starts with neither a letter nor a digit is taken for a misplaced flag, and the
help page answers it, whatever follows. -/
def runUnknown (name : Text) : Outcome :=
  match name with
  | [] => (UsageError.unknownCommand name).outcome .top
  | c :: _ =>
    if c.isAlphanumeric then (UsageError.unknownCommand name).outcome .top
    else Command.top.help

def run (args : List Text) : Outcome :=
  if args = [] then Command.top.help
  else match sortLeading topFlags args with
    | .error e => (UsageError.flag e).outcome .top
    | .ok s =>
      match s.flags, s.positional with
      | flag :: _, _ => answerFlag flag
      | [], [] => UsageError.missingCommand.outcome .top
      | [], name :: rest =>
        if name = ("build" : Text) then runBuild rest
        else if name = ("combine" : Text) then runCombine rest
        else runUnknown name

end SelectorForge.CommandLine
