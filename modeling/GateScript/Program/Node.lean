import GateScript.Number
import GateScript.Wire

/-! Programs as lists of nodes: declarations, actions and conditional actions. -/
namespace GateScript.Program

/-- An argument of a gate. -/
inductive Argument where
  | name (name : String)
  | number (value : Number)
  deriving DecidableEq, Repr

structure GateCall where
  name : String
  args : List Argument
  deriving DecidableEq, Repr

/-- A pipeline given by name, to be run backwards if `reversed`. -/
structure Reference where
  name : String
  reversed : Bool
  deriving DecidableEq, Repr

/-- An element of a pipeline. -/
inductive Part where
  | gate (call : GateCall)
  | named (reference : Reference)
  deriving DecidableEq, Repr

/-- An element of a list of targets. Only names, integers and units stand for targets. -/
inductive TargetItem where
  | name (name : String)
  | number (value : Number)
  | qubit (qubit : Qubit)
  | bit (bit : Bit)
  | nothing
  | list
  deriving DecidableEq, Repr

/-- What an action acts on. `all` stands for the qubits of the circuit. -/
inductive Target where
  | all
  | name (name : String)
  | index (index : Int)
  | list (items : List TargetItem)
  deriving DecidableEq, Repr

/-- What an action does: a pipeline written out, or the name of one. -/
inductive Instruction where
  | parts (parts : List Part)
  | name (name : String)
  deriving DecidableEq, Repr

inductive Node where
  | qubit (name : String) (qubit : Qubit)
  | bit (name : String) (bit : Bit)
  | list (name : String) (items : List String)
  | instruction (name : String) (parts : List Part)
  | action (target : Target) (count : Option Int) (instruction : Instruction)
  | conditional (target : Target) (bit : String) (ifParts : List Part)
      (elseParts : Option (List Part))
  /-- A node that means nothing to a circuit. -/
  | foreign
  deriving DecidableEq, Repr

end GateScript.Program
