import GateScript.Circuit.Basic
import GateScript.Lower.Outcome
import GateScript.Lower.Scope

/-!
The gates of the language: how each reads its arguments and what it records.

A gate finds its partners among its arguments and brings them in. The angles it hands on as they are,
so it is the circuit that says what it takes for an angle.
-/
namespace GateScript.Lower

open Program

/-- An argument of a gate once its name is looked up. -/
inductive Value where
  | number (value : Number)
  | entity (entity : Entity)
  deriving DecidableEq, Repr

def Value.kindName : Value → String
  | .number n => n.kindName
  | .entity e => e.kindName

/-- A qubit is given as such, or by its index in the default register. -/
def Value.qubit : Value → Except LowerError Qubit
  | .entity (.qubit q) => .ok q
  | .number (.int n) => if n < 0 then .error (.negativeIndex n) else .ok (.default n.toNat)
  | _ => .error .notQubit

/-- What a circuit makes of a value that it is given for an angle. -/
abbrev AngleReader := Value → Except LowerError Number

/-- Circuits take numbers for angles. No gate asks for this by itself. -/
def numberAngle : AngleReader
  | .number n => .ok n
  | .entity _ => .error .notAngle

def Value.bit? : Value → Option Bit
  | .entity (.bit b) => some b
  | _ => none

/-- How many arguments a gate asks for, if it asks. -/
inductive Arity where
  | unchecked
  | exactly (count : Nat) (usage : String)
  | atLeast (count : Nat) (usage : String)
  deriving DecidableEq, Repr

def Arity.check (a : Arity) (count : Nat) : Except LowerError Unit :=
  match a with
  | .unchecked => .ok ()
  | .exactly n usage => if count = n then .ok () else .error (.usage usage)
  | .atLeast n usage => if n ≤ count then .ok () else .error (.usage usage)

/-- A gate that acts on one target at a time. Its arguments are the angles and then the partners;
the target stands at `place` among the partners. -/
structure GateRule where
  kind : Primitive
  angles : Nat
  partners : Nat
  place : Nat
  arity : Arity
  deriving DecidableEq, Repr

/-- Takes the next arguments, one for each of `count`. -/
def takeValues {α : Type} (read : Value → Except LowerError α) :
    Nat → List Value → Except LowerError (List α)
  | 0, _ => .ok []
  | _ + 1, [] => .error .missingArgument
  | n + 1, v :: vs =>
    match read v with
    | .error e => .error e
    | .ok a =>
      match takeValues read n vs with
      | .error e => .error e
      | .ok as => .ok (a :: as)

/-- The partners of a gate, if the number of its arguments is right. -/
def GateRule.readPartners (rule : GateRule) (args : List Value) : Except LowerError (List Qubit) :=
  match rule.arity.check args.length with
  | .error e => .error e
  | .ok _ => takeValues Value.qubit rule.partners (args.drop rule.angles)

/-- The qubits of a gate in the order in which they are recorded. -/
def GateRule.arrange (rule : GateRule) (target : Qubit) (partners : List Qubit) : List Qubit :=
  partners.take rule.place ++ target :: partners.drop rule.place

/-- Applies a gate to one target. The partners are brought in before the circuit sees the angles. -/
def GateRule.apply (rule : GateRule) (angle : AngleReader) (args : List Value)
    (condition : Option Condition) (target : Qubit) (c : Circuit) : Outcome Circuit :=
  match rule.readPartners args with
  | .error e => .failed e c
  | .ok partners =>
    match takeValues angle rule.angles args with
    | .error e => .failed e (c.ensureQubits partners)
    | .ok angles =>
      .done ((c.ensureQubits partners).record
        (.gate rule.kind angles (rule.arrange target partners)) condition)

/-- What a gate name means for qubits. -/
inductive QubitRule where
  | each (rule : GateRule)
  | measure
  | barrier
  | phase
  | box
  deriving DecidableEq, Repr

/-- What a gate name means for bits. -/
inductive BitRule where
  | not
  | set
  | combine (operator : BitOperator)
  | copy
  deriving DecidableEq, Repr

/-- A gate on the target alone. -/
def alone (kind : Primitive) : QubitRule := .each ⟨kind, 0, 0, 0, .unchecked⟩

/-- A rotation of the target. -/
def turn (kind : Primitive) (angles : Nat) (arity : Arity) : QubitRule :=
  .each ⟨kind, angles, 0, 0, arity⟩

/-- A gate with one partner that stands before the target. -/
def controlled (kind : Primitive) (angles : Nat) (arity : Arity) : QubitRule :=
  .each ⟨kind, angles, 1, 1, arity⟩

/-- A gate with one partner that stands after the target. -/
def paired (kind : Primitive) (angles : Nat) (arity : Arity) : QubitRule :=
  .each ⟨kind, angles, 1, 0, arity⟩

def qubitRules : List (String × QubitRule) :=
  [("N", alone .x), ("X", alone .x), ("Y", alone .y), ("Z", alone .z), ("H", alone .h),
    ("S", alone .s), ("ST", alone .sdg), ("TT", alone .tdg), ("T", alone .t),
    ("RX", turn .rx 1 .unchecked), ("RY", turn .ry 1 .unchecked), ("RZ", turn .rz 1 .unchecked),
    ("SX", alone .sx), ("SXDG", alone .sxdg), ("V", alone .v), ("VDG", alone .vdg),
    ("U1", turn .u1 1 (.exactly 1 "U1 requires exactly 1 angle argument: U1(λ)")),
    ("U2", turn .u2 2 (.exactly 2 "U2 requires exactly 2 angle arguments: U2(φ, λ)")),
    ("U3", turn .u3 3 (.exactly 3 "U3 requires exactly 3 angle arguments: U3(θ, φ, λ)")),
    ("TK1", turn .tk1 3 (.exactly 3 "TK1 requires exactly 3 angle arguments: TK1(α, β, γ)")),
    ("PX", turn .phasedX 2
      (.atLeast 2 "PX / PHASEDX requires exactly 2 arguments: PX(exponent, phase)")),
    ("PHASEDX", turn .phasedX 2
      (.atLeast 2 "PX / PHASEDX requires exactly 2 arguments: PX(exponent, phase)")),
    ("CX", controlled .cx 0 .unchecked), ("CNOT", controlled .cx 0 .unchecked),
    ("FCX", paired .cx 0 .unchecked), ("FCNOT", paired .cx 0 .unchecked),
    ("CY", controlled .cy 0 .unchecked), ("FCY", paired .cy 0 .unchecked),
    ("CZ", controlled .cz 0 .unchecked), ("FCZ", paired .cz 0 .unchecked),
    ("CH", controlled .ch 0 .unchecked), ("FCH", paired .ch 0 .unchecked),
    ("CU1", controlled .cu1 1 .unchecked), ("SWAP", paired .swap 0 .unchecked),
    ("CRX", controlled .crx 1 (.atLeast 2 "CRX requires 2 arguments: CRX(angle, ctrl)")),
    ("CRY", controlled .cry 1 (.atLeast 2 "CRY requires 2 arguments: CRY(angle, ctrl)")),
    ("CRZ", controlled .crz 1 (.atLeast 2 "CRZ requires 2 arguments: CRZ(angle, ctrl)")),
    ("ECR", controlled .ecr 0 (.atLeast 1 "ECR requires 1 argument: ECR(ctrl)")),
    ("ISWAP", paired .iswap 1 (.atLeast 2 "ISWAP requires 2 arguments: ISWAP(angle, other)")),
    ("ISWAPMAX", paired .iswapMax 0
      (.atLeast 1 "ISWAPMAX requires 1 argument: ISWAPMAX(other)")),
    ("ZZMAX", paired .zzMax 0 (.atLeast 1 "ZZMAX requires 1 argument: ZZMAX(other)")),
    ("ZZPH", paired .zzPhase 1 (.atLeast 2 "ZZPH requires 2 arguments: ZZPH(angle, other)")),
    ("XXPH", paired .xxPhase 1 (.atLeast 2 "XXPH requires 2 arguments: XXPH(angle, other)")),
    ("YYPH", paired .yyPhase 1 (.atLeast 2 "YYPH requires 2 arguments: YYPH(angle, other)")),
    ("FSIM", paired .fsim 2 (.atLeast 3 "FSIM requires 3 arguments: FSIM(θ, φ, other)")),
    ("TK2", paired .tk2 3 (.atLeast 4 "TK2 requires 4 arguments: TK2(a, b, c, other)")),
    ("PHISWAP", paired .phasedIswap 2
      (.atLeast 3 "PHISWAP requires 3 arguments: PHISWAP(p, t, other)")),
    ("CCX", .each ⟨.ccx, 0, 2, 2, .unchecked⟩), ("TOFFOLI", .each ⟨.ccx, 0, 2, 2, .unchecked⟩),
    ("CSWAP", .each ⟨.cswap, 0, 2, 1,
      .atLeast 2 "CSWAP / FREDKIN requires 2 arguments: CSWAP(ctrl, other)"⟩),
    ("FREDKIN", .each ⟨.cswap, 0, 2, 1,
      .atLeast 2 "CSWAP / FREDKIN requires 2 arguments: CSWAP(ctrl, other)"⟩),
    ("XXP3", .each ⟨.xxPhase3, 1, 2, 0,
      .atLeast 3 "XXP3 requires 3 arguments: XXP3(angle, q1, q2)"⟩),
    ("R", alone .reset), ("RESET", alone .reset), ("M", .measure), ("MEASURE", .measure),
    ("BARRIER", .barrier), ("PHASE", .phase), ("CIRCBOX", .box)]

def bitRules : List (String × BitRule) :=
  [("NOT", .not), ("SET", .set), ("AND", .combine .and), ("OR", .combine .or),
    ("XOR", .combine .xor), ("COPY", .copy)]

/-- Measures into the bit that is given, or else into the one that goes with the qubit. -/
def measureOne (destination : Option Bit) (condition : Option Condition) (c : Circuit)
    (q : Qubit) : Circuit :=
  let b := destination.getD (.default q.index)
  (c.ensureBit b).record (.measure q b) condition

/-- Do two lists hold the same elements? -/
def sameElements {α : Type} [BEq α] (as bs : List α) : Bool :=
  as.all bs.contains && bs.all as.contains

/-- Measures qubits. All qubits of the circuit at once are measured as one operation, unless
arguments or a condition ask for more. -/
def measureQubits (args : List Value) (condition : Option Condition) (targets : List Qubit)
    (c : Circuit) : Circuit :=
  if args.isEmpty && condition.isNone && sameElements targets c.qubits then c.measureAll
  else targets.foldl (measureOne (args.head?.bind Value.bit?) condition) c

/-- One barrier across all targets. -/
def placeBarrier (condition : Option Condition) (targets : List Qubit) :
    Except LowerError (Circuit → Circuit) :=
  if condition.isSome then .error .barrierConditional
  else .ok fun c => c.record (.barrier targets) none

/-- A phase of the whole circuit. -/
def addPhase (angle : AngleReader) (args : List Value) (condition : Option Condition) :
    Except LowerError (Circuit → Circuit) :=
  match args with
  | [] => .error (.usage "PHASE requires one angle argument in half-turns: PHASE(angle)")
  | v :: _ =>
    if condition.isSome then .error .phaseConditional
    else (angle v).map fun phase c => c.record (.phase phase) none

/-- The pipeline that is to be boxed. -/
def boxBody (args : List Value) (condition : Option Condition) : Except LowerError (List Part) :=
  match args with
  | [] =>
    .error (.usage ("CIRCBOX requires one argument: the name of a declared instruction pipeline. " ++
      "Example:  [q0, q1] -> CIRCBOX(bell_prep)"))
  | .entity (.pipeline parts) :: _ =>
    if condition.isSome then .error .boxConditional else .ok parts
  | v :: _ => .error (.boxKind v.kindName)

/-- How an operation with two operands is used. -/
def combineUsage : BitOperator → String
  | .and => "AND requires exactly 2 bit arguments: AND(b0, b1)"
  | .or => "OR requires exactly 2 bit arguments: OR(b0, b1)"
  | .xor => "XOR requires exactly 2 bit arguments: XOR(b0, b1)"

/-- Applies an operation to one bit. -/
def BitRule.apply (rule : BitRule) (args : List Value) (target : Bit) :
    Except LowerError (Circuit → Circuit) :=
  match rule, args with
  | .not, [] => .ok fun c => (c.ensureBit target).record (.bitNot target target) none
  | .not, [.entity (.bit source)] =>
    .ok fun c => (c.ensureBits [source, target]).record (.bitNot source target) none
  | .not, [v] => .error (.bitSourceKind v.kindName)
  | .not, _ => .error (.usage "NOT takes 0 or 1 argument: NOT  or  NOT(src_bit)")
  | .set, [.number (.int n)] =>
    if n = 0 ∨ n = 1 then .ok fun c => (c.ensureBit target).record (.bitSet (n = 1) target) none
    else .error (.bitValue n)
  | .set, _ => .error (.usage "SET requires exactly one integer literal: SET(0) or SET(1)")
  | .combine operator, [.entity (.bit left), .entity (.bit right)] =>
    .ok fun c =>
      (c.ensureBits [left, right, target]).record (.bitCombine operator left right target) none
  | .combine operator, _ => .error (.usage (combineUsage operator))
  | .copy, [.entity (.bit source)] =>
    .ok fun c => (c.ensureBits [source, target]).record (.bitCopy source target) none
  | .copy, _ => .error (.usage "COPY requires exactly 1 bit argument: COPY(src_bit)")

end GateScript.Lower
