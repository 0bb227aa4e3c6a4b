import FeatureFile.CommandLine

/-!
# The program

`events [options] file...` prints the messages about feature files and `tokens file...` their
token listings. Everything but reading the files and printing is done by `CommandLine`. No character
is known here by its name.
-/

namespace FeatureFile.Program

/-- The file of that name, if it can be read. -/
def readFile (name : String) : IO (Option File) := do
  try
    let bytes ← IO.FS.readBinFile name
    return some { name := name.toList, bytes }
  catch _ => return none

/-- The files among the arguments. -/
def readFiles (args : List String) : IO Archive := do
  let files ← args.mapM readFile
  return files.reduceOption

/-- Prints what a command has printed and gives its exit code. -/
def report (printed : Printed) : IO UInt32 := do
  for line in printed.lines do
    IO.println (String.ofList line)
  match printed.complaint with
  | none => return 0
  | some text =>
    IO.eprintln (String.ofList text)
    return 1

end FeatureFile.Program

/-- Runs the command named by the first argument on the others. -/
def main (args : List String) : IO UInt32 := do
  match args with
  | "events" :: args =>
    let archive ← FeatureFile.Program.readFiles args
    FeatureFile.Program.report
      (FeatureFile.CommandLine.events archive .full (args.map String.toList))
  | "tokens" :: args =>
    let archive ← FeatureFile.Program.readFiles args
    FeatureFile.Program.report
      (FeatureFile.CommandLine.tokens archive .full (args.map String.toList))
  | _ =>
    IO.eprintln "usage: events [options] file... | tokens file..."
    return 2
