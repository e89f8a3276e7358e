import GateScript.Command.CompileFile

/-!
The command line. It compiles with the packages at hand; this program brings none of its own, so a
program that is well formed ends with the message that names the missing one.
-/
namespace GateScript

open Command

def noPackages : Output.Toolkit := fun _ => none

def usageText : String := "usage: [-h] -l LANGUAGE [-o OUTPUT] source"

/-- The text of a source from the disk or from what comes in. -/
def loadSource (source : String) : IO (Except ReadError String) := do
  if source = "-" then
    return .ok (inputText (← (← IO.getStdin).readToEnd))
  try
    let bytes ← IO.FS.readBinFile source
    return fileText (.ofString source) bytes.toList
  catch _ =>
    return .error (.notFound source)

/-- Puts a result where the job wants it. -/
def saveResult (job : Job) (language : Output.Language) (result : String) : IO ExitCode := do
  if job.goesOut language then
    IO.print result
    return .ok
  let path := (pathFor job.source language job.output).text
  try
    IO.FS.writeFile path result
    IO.eprintln ("Compiled to: " ++ path)
    return .ok
  catch e =>
    IO.eprintln ("[Write Error] Could not write output: " ++ toString e)
    return .writeError

/-- A program that does not compile ends with code one. -/
def runJob (job : Job) : IO UInt32 := do
  match ← loadSource job.source with
  | .error e =>
    IO.eprintln e.message
    return e.exitCode.number.toUInt32
  | .ok text =>
    match job.language with
    | none =>
      IO.eprintln (Break.noLanguage.message.getD "")
      return 1
    | some language =>
      match Output.compile noPackages text language.name with
      | .error e =>
        IO.eprintln (e.message.getD "The program does not compile.")
        return 1
      | .ok result => return (← saveResult job language result).number.toUInt32

end GateScript

def main (args : List String) : IO UInt32 := do
  match GateScript.Command.Job.ofArgs args with
  | .run job => GateScript.runJob job
  | .help =>
    IO.println GateScript.usageText
    return 0
  | .usage =>
    IO.eprintln GateScript.usageText
    return 2
