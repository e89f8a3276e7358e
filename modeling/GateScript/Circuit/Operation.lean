import GateScript.Number
import GateScript.Wire

/-! The operations that a circuit is made of. -/
namespace GateScript

/-- Gates on qubits. -/
inductive Primitive where
  | x | y | z | h | s | sdg | t | tdg
  | rx | ry | rz
  | sx | sxdg | v | vdg
  | u1 | u2 | u3 | tk1 | phasedX
  | cx | cy | cz | ch | cu1 | swap
  | crx | cry | crz | ecr
  | iswap | iswapMax
  | zzMax | zzPhase | xxPhase | yyPhase
  | fsim | tk2 | phasedIswap
  | ccx | cswap | xxPhase3
  | reset
  deriving DecidableEq, Repr

/-- The name under which an operation is recorded. -/
def Primitive.label : Primitive → String
  | .x => "X" | .y => "Y" | .z => "Z" | .h => "H"
  | .s => "S" | .sdg => "Sdg" | .t => "T" | .tdg => "Tdg"
  | .rx => "Rx" | .ry => "Ry" | .rz => "Rz"
  | .sx => "SX" | .sxdg => "SXdg" | .v => "V" | .vdg => "Vdg"
  | .u1 => "U1" | .u2 => "U2" | .u3 => "U3" | .tk1 => "TK1" | .phasedX => "PhasedX"
  | .cx => "CX" | .cy => "CY" | .cz => "CZ" | .ch => "CH" | .cu1 => "CU1" | .swap => "SWAP"
  | .crx => "CRx" | .cry => "CRy" | .crz => "CRz" | .ecr => "ECR"
  | .iswap => "ISWAP" | .iswapMax => "ISWAPMax"
  | .zzMax => "ZZMax" | .zzPhase => "ZZPhase" | .xxPhase => "XXPhase" | .yyPhase => "YYPhase"
  | .fsim => "FSim" | .tk2 => "TK2" | .phasedIswap => "PhasedISWAP"
  | .ccx => "CCX" | .cswap => "CSWAP" | .xxPhase3 => "XXPhase3"
  | .reset => "Reset"

/-- Operations on bits with two operands. -/
inductive BitOperator where
  | and | or | xor
  deriving DecidableEq, Repr

inductive Operation where
  | addQubit (qubit : Qubit)
  | addBit (bit : Bit)
  | gate (kind : Primitive) (angles : List Number) (qubits : List Qubit)
  | measure (qubit : Qubit) (bit : Bit)
  | measureAll
  | barrier (qubits : List Qubit)
  | phase (angle : Number)
  /-- A circuit of its own, by its number among the circuits, applied to qubits. -/
  | box (number : Nat) (qubits : List Qubit)
  | bitNot (source destination : Bit)
  | bitSet (value : Bool) (destination : Bit)
  | bitCombine (operator : BitOperator) (left right destination : Bit)
  | bitCopy (source destination : Bit)
  deriving DecidableEq, Repr

/-- An operation takes effect only if the bit has the value. -/
structure Condition where
  bit : Bit
  value : Bool
  deriving DecidableEq, Repr

/-- An operation as it is recorded. -/
structure Call where
  operation : Operation
  condition : Option Condition
  deriving DecidableEq, Repr

end GateScript
