/-! The languages that a circuit can be written in. -/
namespace GateScript.Output

inductive Language where
  | braket
  | cirq
  | json
  | latex
  | qasm
  | qir
  | quil
  deriving DecidableEq, Repr

namespace Language

/-- All languages, in the order of their names. -/
def every : List Language := [braket, cirq, json, latex, qasm, qir, quil]

def name : Language → String
  | braket => "braket"
  | cirq => "cirq"
  | json => "json"
  | latex => "latex"
  | qasm => "qasm"
  | qir => "qir"
  | quil => "quil"

def ofName? (s : String) : Option Language := every.find? (·.name == s)

/-- The ending of the names of files in a language. -/
def extension : Language → String
  | braket => ".qasm"
  | cirq => ".py"
  | json => ".json"
  | latex => ".tex"
  | qasm => ".qasm"
  | qir => ".ll"
  | quil => ".quil"

end Language

/-- The libraries whose own objects a circuit can be turned into. -/
inductive Library where
  | tket
  | cirq
  | braket
  | pyquil
  | qiskit
  deriving DecidableEq, Repr

def Library.ofName? : String → Option Library
  | "tket" => some .tket
  | "cirq" => some .cirq
  | "braket" => some .braket
  | "pyquil" => some .pyquil
  | "qiskit" => some .qiskit
  | _ => none

end GateScript.Output
