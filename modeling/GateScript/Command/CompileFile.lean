import GateScript.Command.Disk
import GateScript.Command.Options
import GateScript.Output.Render

/-! The command that compiles a file, or what comes in, to a file or to what goes out. -/
namespace GateScript.Command

open Output

/-- What is to be compiled, into which language and where to. The language is missing if its option
was set to nothing. -/
structure Job where
  source : String
  language : Option Language
  output : Option String
  deriving DecidableEq, Repr

def compileOptions : OptionRules where
  options :=
    [⟨"help", ["-h", "--help"], .help, fun _ => true⟩,
      ⟨"language", ["-l", "--language"], .value, fun s => (Language.ofName? s).isSome⟩,
      ⟨"output", ["-o", "--output"], .value, fun _ => true⟩]
  takesOperand := true

/-- What a command line asks for. -/
inductive Asked (α : Type) where
  | run (job : α)
  | help
  | usage
  deriving DecidableEq, Repr

/-- The source and the option for the language have to be there. -/
def Job.ofArgs (args : List String) : Asked Job :=
  match parseArgs compileOptions args with
  | .help => .help
  | .usage => .usage
  | .run settings =>
    match settings.operand, settings.values.lookup "language" with
    | some source, some name =>
      .run ⟨source, name.bind Language.ofName?, (settings.values.lookup "output").join⟩
    | _, _ => .usage

/-- How the command ends. -/
inductive ExitCode where
  | ok
  | fileNotFound
  | invalidInput
  | readError
  | writeError
  deriving DecidableEq, Repr

def ExitCode.number : ExitCode → Nat
  | .ok => 0
  | .fileNotFound => 2
  | .invalidInput => 3
  | .readError => 4
  | .writeError => 6

/-- Why a source cannot be read. -/
inductive ReadError where
  | notFound (source : String)
  | wrongSuffix (suffix : String)
  | encoding (fault : Text.Utf8Fault)
  | system (fault : Fault) (path : Path)
  deriving DecidableEq, Repr

def ReadError.exitCode : ReadError → ExitCode
  | .notFound _ => .fileNotFound
  | .wrongSuffix _ => .invalidInput
  | .encoding _ => .invalidInput
  | .system _ _ => .readError

def ReadError.message : ReadError → String
  | .notFound source => "[File Error] Source file not found: " ++ source
  | .wrongSuffix suffix => "[Input Error] Expected a .sph file, got '" ++ suffix ++ "'"
  | .encoding fault => "[Input Error] " ++ fault.message
  | .system fault path => "[System Error] Failed to read file: " ++ fault.message path

/-- The suffix of source files, in upper or lower case. -/
def isSourceSuffix (suffix : String) : Bool := suffix.toList.map Char.toLower == ".sph".toList

/-- No path holds this character. -/
def nullChar : Char := '\x00'

/-- What comes in, with every line ended alike. -/
def inputText (input : String) : String := String.ofList (Text.unifyNewlines input.toList)

/-- The text of a source file by its bytes, with every line ended alike. -/
def fileText (path : Path) (bytes : List UInt8) : Except ReadError String :=
  if isSourceSuffix path.suffix then
    match Text.decodeUtf8 bytes with
    | .ok text => .ok (String.ofList (Text.unifyNewlines text))
    | .error fault => .error (.encoding fault)
  else .error (.wrongSuffix path.suffix)

/-- Reads a source: a dash is what comes in, and all else is a path. -/
def readSource (disk : Disk) (input source : String) : Except ReadError String :=
  if source = "-" then .ok (inputText input)
  else if source.toList.contains nullChar then .error (.notFound source)
  else
    let path := Path.ofString source
    match disk.find path with
    | .ok (.file _ bytes) => fileText path bytes
    | .error .nameTooLong => .error (.system .nameTooLong path)
    | _ => .error (.notFound source)

/-- What the command leaves behind: its exit code, what it says, and the disk. -/
structure Ending where
  exitCode : ExitCode
  output : String
  errors : String
  disk : Disk
  deriving DecidableEq, Repr

/-- Why the command breaks off. -/
inductive Break where
  | output (error : OutputError)
  | nullInPath
  | noLanguage
  deriving DecidableEq, Repr

/-- The text of what breaks the command off, if it has one. -/
def Break.message : Break → Option String
  | .output e => e.message
  | .nullInPath => some "embedded null byte"
  | .noLanguage => some "unhashable type: 'list'"

/-- A result goes out if a dash is given for it, or if nothing is given and a dash is the path that
the name of the input comes to. -/
def Job.goesOut (job : Job) (language : Language) : Bool :=
  job.output = some "-" ||
    (job.output.isNone && (pathFor job.source language job.output).text = "-")

/-- Where a result is put: out, or at the place of a path. -/
def Job.deliver (job : Job) (language : Language) (disk : Disk) (result : String) :
    Except Break Ending :=
  if job.goesOut language then .ok ⟨.ok, result, "", disk⟩
  else
    let path := pathFor job.source language job.output
    if path.text.toList.contains nullChar then .error .nullInPath
    else
      match disk.placeFor path with
      | .error fault =>
        .ok ⟨.writeError, "",
          "[Write Error] Could not write output: " ++ fault.message path ++ "\n", disk⟩
      | .ok place =>
        .ok ⟨.ok, "", "Compiled to: " ++ disk.fullPath place ++ "\n",
          disk.write place (Text.encodeUtf8 result)⟩

/-- Reads, compiles and delivers. Without a language, or if the program does not compile, the command
breaks off. -/
def Job.run (toolkit : Toolkit) (disk : Disk) (input : String) (job : Job) : Except Break Ending :=
  match readSource disk input job.source with
  | .error e => .ok ⟨e.exitCode, "", e.message ++ "\n", disk⟩
  | .ok text =>
    match job.language with
    | none => .error .noLanguage
    | some language =>
      match compile toolkit text language.name with
      | .error e => .error (.output e)
      | .ok result => job.deliver language disk result

end GateScript.Command
