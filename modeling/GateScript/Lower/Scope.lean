import GateScript.Program.Node

/-! What the names of a program stand for. -/
namespace GateScript.Lower

open Program

/-- What a name can be declared as. -/
inductive Entity where
  | qubit (qubit : Qubit)
  | bit (bit : Bit)
  | list (names : List String)
  | pipeline (parts : List Part)
  deriving DecidableEq, Repr

/-- The name of the kind of entity in messages. -/
def Entity.kindName : Entity → String
  | .qubit _ => "Qubit"
  | .bit _ => "Bit"
  | .list _ => "list"
  | .pipeline _ => "GatePipeline"

/-- The declarations so far, the latest first. All kinds share one space of names. -/
abbrev Scope := List (String × Entity)

def Scope.find? (scope : Scope) (name : String) : Option Entity := scope.lookup name

def Scope.declare (scope : Scope) (name : String) (entity : Entity) : Scope := (name, entity) :: scope

end GateScript.Lower
