import SelectorForge.CommandLine.Arguments
import SelectorForge.Text.Terminal

/-!
# Usage

What a run of the program prints and how it ends, and the texts about the use of the program: help
pages and usage errors.

The option parser writes these texts, so their wording and their layout are assumed, and the exit
code of a usage error, too. Names, patterns and the lines that describe the commands and the flags
are the program's own.
-/

namespace SelectorForge.CommandLine

/-- The exit code, and what goes to the two outputs. -/
structure Outcome where
  exit : Nat := 0
  out : Text := []
  err : Text := []
deriving DecidableEq, Repr

def newline : Text := [CodePoint.lineFeed]

/-- A line on the first output. -/
def Outcome.line (t : Text) : Outcome := { out := t.printed ++ newline }

/-- A line on the second output, after which the run has failed. -/
def Outcome.failure (message : Text) : Outcome :=
  { exit := 1, err := (("Error: " : Text) ++ message).printed ++ newline }

/-- The commands; `top` stands for the program itself. -/
inductive Command
  | top
  | build
  | combine
deriving DecidableEq, Repr

namespace Command

def name : Command → Text
  | .top => "cssbuilder"
  | .build => "cssbuilder build"
  | .combine => "cssbuilder combine"

def pattern : Command → Text
  | .top => "[OPTIONS] COMMAND [ARGS]..."
  | .build => "[OPTIONS] FRAGMENTS..."
  | .combine => "[OPTIONS] LEFT COMBINATOR RIGHT"

def synopsis (c : Command) : Text := ("Usage: " : Text) ++ c.name ++ (" " : Text) ++ c.pattern

/-- The help page below its first line. -/
def helpLines : Command → List String
  | .top => [
    "  cssbuilder - build CSS selectors from fragments.", "",
    "Options:",
    "  --version  Show the version and exit.",
    "  --help     Show this message and exit.", "",
    "Commands:",
    "  build    Build a simple selector from kind=value FRAGMENTS.",
    "  combine  Join two selectors with COMBINATOR."]
  | .build => [
    "  Build a simple selector from kind=value FRAGMENTS.", "",
    "  Kinds: element, id, class, attr, pseudo-class, pseudo-element.", "",
    "Options:",
    "  --normalized  Emit standard CSS spacing",
    "  --help        Show this message and exit."]
  | .combine => [
    "  Join two selectors with COMBINATOR.", "",
    "  LEFT and RIGHT are kind=value fragment lists, split with shell quoting rules",
    "  so a quoted value may contain spaces.", "",
    "Options:",
    "  --normalized  Emit standard CSS spacing",
    "  --help        Show this message and exit."]

def help (c : Command) : Outcome :=
  { out := c.synopsis ++ newline ++ newline
      ++ (c.helpLines.map fun l => Text.ofString l ++ newline).flatten }

end Command

def version : Text := "0.1.0"

def versionOutcome : Outcome := .line (("cssbuilder, version " : Text) ++ version)

/-! ### usage errors -/

inductive UsageError
  | flag (error : FlagError)
  | missingArgument (name : Text)
  | extraArguments (arguments : List Text)
  | missingCommand
  | unknownCommand (name : Text)
deriving DecidableEq, Repr

def UsageError.message : UsageError → Text
  | .flag (.unknown name) => ("No such option: " : Text) ++ name
  | .flag (.takesNoValue name) =>
    ("Option " : Text) ++ name.quoted ++ (" does not take a value." : Text)
  | .missingArgument name => ("Missing argument " : Text) ++ name.quoted ++ ("." : Text)
  | .extraArguments [arg] => ("Got unexpected extra argument (" : Text) ++ arg ++ (")" : Text)
  | .extraArguments args =>
    ("Got unexpected extra arguments (" : Text) ++ (" " : Text).intercalate args ++ (")" : Text)
  | .missingCommand => "Missing command."
  | .unknownCommand name => ("No such command " : Text) ++ name.quoted ++ ("." : Text)

/-- The pointer to the help page is left out for a flag that was given a value. -/
def UsageError.outcome (e : UsageError) (c : Command) : Outcome :=
  let line := (("Error: " : Text) ++ e.message).printed ++ newline
  match e with
  | .flag (.takesNoValue _) => { exit := 2, err := line }
  | _ =>
    { exit := 2
      err := c.synopsis ++ newline
        ++ ("Try '" : Text) ++ c.name ++ (" --help' for help." : Text) ++ newline ++ newline
        ++ line }

end SelectorForge.CommandLine
