import SelectorClauses.CommandLine.Run
import Std.Time.Format

/-!
The program itself: it reads the standard input where a run needs it, writes the two outputs and
ends with the exit code.
-/
namespace SelectorClauses

def CommandLine.timeStamp : IO Text := do
  let now ← Std.Time.PlainDateTime.now
  return (now.format "uuuu-MM-dd HH:mm:ss,SSS").toList

end SelectorClauses

open SelectorClauses in
def main (args : List String) : IO UInt32 := do
  let arguments := args.map String.toList
  let input ← if CommandLine.readsInput arguments then (← IO.getStdin).readToEnd else pure ""
  let outcome := CommandLine.run arguments input.toList
  let stamps ← outcome.journal.mapM fun _ => CommandLine.timeStamp
  IO.eprint (String.ofList (outcome.errorOutput fun place => stamps.getD place []))
  IO.print (String.ofList outcome.stdout)
  return outcome.exitCode.toUInt32
