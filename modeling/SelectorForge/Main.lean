import SelectorForge.CommandLine.Run

/-!
# The program
-/

/-- Runs a command and prints what it answers. -/
def main (args : List String) : IO UInt32 := do
  let outcome := SelectorForge.CommandLine.run (args.map SelectorForge.Text.ofString)
  (← IO.getStdout).putStr outcome.out.toString
  (← IO.getStderr).putStr outcome.err.toString
  return outcome.exit.toUInt32
