import GateScript.Command.CompileFile
import GateScript.Decimal.Numeral

/-! The command that starts the editor service. -/
namespace GateScript.Command

/-- How the service talks to an editor. The host and the port are missing if their options were set
to nothing. -/
inductive Transport where
  | standard
  | tcp (host : Option String) (port : Option Int)
  deriving DecidableEq, Repr

def logLevels : List String := ["DEBUG", "INFO", "WARNING", "ERROR", "CRITICAL"]

def serveOptions : OptionRules where
  options :=
    [⟨"help", ["-h", "--help"], .help, fun _ => true⟩,
      ⟨"tcp", ["--tcp"], .switch, fun _ => true⟩,
      ⟨"host", ["--host"], .value, fun _ => true⟩,
      ⟨"port", ["--port"], .value, fun s => (Decimal.readInt? s.toList).isSome⟩,
      ⟨"log-level", ["--log-level"], .value, logLevels.contains⟩]
  takesOperand := false

def defaultHost : String := "127.0.0.1"

def defaultPort : Int := 2087

def defaultLogLevel : String := "WARNING"

/-- A service to be started. -/
structure Service where
  transport : Transport
  logLevel : Option String
  deriving DecidableEq, Repr

/-- The host and the port only matter over TCP. -/
def Service.ofArgs (args : List String) : Asked Service :=
  match parseArgs serveOptions args with
  | .help => .help
  | .usage => .usage
  | .run settings =>
    let host := (settings.values.lookup "host").getD (some defaultHost)
    let port := match settings.values.lookup "port" with
      | none => some defaultPort
      | some numeral => numeral.bind fun s => Decimal.readInt? s.toList
    .run ⟨if settings.switches.contains "tcp" then .tcp host port else .standard,
      (settings.values.lookup "log-level").getD (some defaultLogLevel)⟩

/-- Why a service does not start. -/
inductive StartError where
  | noLogLevel
  deriving DecidableEq, Repr

def StartError.message : StartError → String
  | .noLogLevel => "attribute name must be string, not 'list'"

/-- Starts the service. The log is set up first. -/
def Service.start (service : Service) : Except StartError Transport :=
  match service.logLevel with
  | none => .error .noLogLevel
  | some _ => .ok service.transport

end GateScript.Command
