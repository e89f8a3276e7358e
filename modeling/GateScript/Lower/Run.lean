import GateScript.Lower.Expansion
import GateScript.Lower.Gate

/-!
Lowering a program to circuits.

A gate call is checked before it touches the circuit: its arguments are looked up, and its name
must mean something for every kind of unit among the targets. Then the targets are allocated and
the gate is applied, to one target after the other or to all at once.
-/
namespace GateScript.Lower

open Program

/-- The circuit of the program, and the boxes in the order in which they were begun. -/
structure Circuits where
  main : Circuit
  boxes : List Circuit
  deriving DecidableEq, Repr

def Circuits.all (cs : Circuits) : List Circuit := cs.main :: cs.boxes

/-- A step on the main circuit. -/
def onMain (step : Circuit → Outcome Circuit) (cs : Circuits) : Outcome Circuits :=
  (step cs.main).map fun main => { cs with main }

/-- The targets of a gate call by kind. Names of lists and pipelines are no targets. -/
structure Targets where
  qubits : List Qubit
  bits : List Bit
  deriving DecidableEq, Repr

def Entity.qubit? : Entity → Option Qubit
  | .qubit q => some q
  | _ => none

def Entity.bit? : Entity → Option Bit
  | .bit b => some b
  | _ => none

def Targets.ofEntities (entities : List Entity) : Targets :=
  ⟨entities.filterMap Entity.qubit?, entities.filterMap Entity.bit?⟩

/-- Looks up the arguments of a gate call, from left to right. -/
def resolveArgs (scope : Scope) : List Argument → Except LowerError (List Value)
  | [] => .ok []
  | .number n :: as => (resolveArgs scope as).map (.number n :: ·)
  | .name x :: as =>
    match scope.find? x with
    | none => .error (.unknownName x)
    | some e => (resolveArgs scope as).map (.entity e :: ·)

/-- A gate call that has been checked. A rule is there if there are targets of its kind. -/
structure Prepared where
  args : List Value
  qubitRule : Option QubitRule
  bitRule : Option BitRule
  deriving DecidableEq, Repr

/-- The rule for a name, needed only if there are targets. -/
def findRule {α β : Type} (rules : List (String × α)) (name : String) (targets : List β)
    (unknown : LowerError) : Except LowerError (Option α) :=
  if targets.isEmpty then .ok none
  else
    match rules.lookup name with
    | some rule => .ok (some rule)
    | none => .error unknown

/-- Checks a gate call. -/
def prepare (scope : Scope) (targets : Targets) (call : GateCall) : Except LowerError Prepared :=
  match resolveArgs scope call.args with
  | .error e => .error e
  | .ok args =>
    match findRule qubitRules call.name targets.qubits (.unknownGate call.name) with
    | .error e => .error e
    | .ok qubitRule =>
      match findRule bitRules call.name targets.bits (.unknownBitOperation call.name) with
      | .error e => .error e
      | .ok bitRule => .ok ⟨args, qubitRule, bitRule⟩

/-- How a pipeline is boxed for some qubits. -/
abbrev BoxMaker := List Part → List Qubit → Circuits → Outcome Circuits

/-- Applies a rule to qubits that are present. -/
def QubitRule.run (box : BoxMaker) (rule : QubitRule) (args : List Value)
    (condition : Option Condition) (targets : List Qubit) (cs : Circuits) : Outcome Circuits :=
  match rule with
  | .each rule => onMain (runEach (rule.apply numberAngle args condition) targets) cs
  | .measure => onMain (fun c => .done (measureQubits args condition targets c)) cs
  | .barrier => onMain (.ofCheck (placeBarrier condition targets)) cs
  | .phase => onMain (.ofCheck (addPhase numberAngle args condition)) cs
  | .box =>
    match boxBody args condition with
    | .error e => .failed e cs
    | .ok body => box body targets cs

/-- Applies a gate call that has been checked. -/
def Prepared.run (box : BoxMaker) (p : Prepared) (targets : Targets) (condition : Option Condition)
    (cs : Circuits) : Outcome Circuits :=
  let onQubits : Outcome Circuits :=
    match p.qubitRule with
    | none => .done cs
    | some rule =>
      rule.run box p.args condition targets.qubits
        { cs with main := cs.main.ensureQubits targets.qubits }
  onQubits.andThen fun cs =>
    match p.bitRule with
    | none => .done cs
    | some rule => onMain (runEach (fun b => .ofCheck (rule.apply p.args b)) targets.bits) cs

/-- Runs one gate call. -/
def runCall (box : BoxMaker) (scope : Scope) (targets : Targets) (condition : Option Condition)
    (call : GateCall) (cs : Circuits) : Outcome Circuits :=
  match prepare scope targets call with
  | .error e => .failed e cs
  | .ok p => p.run box targets condition cs

/-- What a pipeline comes to that could not be expanded to its end. -/
def Stop.outcome (stop : Stop) (cs : Circuits) : Outcome Circuits :=
  match stop with
  | .unknownName name => .failed (.unknownName name) cs
  | .notPipeline name => .failed (.notPipeline name) cs
  | .endless => .endless

/-- Runs a pipeline on targets. -/
def runPipelineWith (box : BoxMaker) (scope : Scope) (targets : Targets)
    (condition : Option Condition) (parts : List Part) (cs : Circuits) : Outcome Circuits :=
  let e := expand scope parts
  (runEach (runCall box scope targets condition) e.calls cs).andThen fun cs =>
    match e.stop with
    | none => .done cs
    | some stop => stop.outcome cs

/-- Boxes do not nest: a box is made of a named pipeline, and no name is known inside a box. -/
def noBox : BoxMaker := fun _ _ cs => .done cs

/-- The body of a box, run on the first of its qubits. -/
def runBody (body : List Part) (width : Nat) : Outcome Circuits :=
  runPipelineWith noBox [] ⟨[.default 0], []⟩ none body ⟨.blank width, []⟩

/-- Makes a box as wide as there are targets and applies it to them. A box that fails is kept as
far as it got. -/
def makeBox : BoxMaker := fun body targets cs =>
  match runBody body targets.length with
  | .done inner =>
    let number := cs.boxes.length + 1
    .done ⟨(cs.main.ensureQubits targets).record (.box number targets) none, cs.boxes ++ [inner.main]⟩
  | .failed e inner => .failed e { cs with boxes := cs.boxes ++ [inner.main] }
  | .endless => .endless

/-- Runs a pipeline of the program. -/
def runPipeline (scope : Scope) (targets : Targets) (condition : Option Condition)
    (parts : List Part) (cs : Circuits) : Outcome Circuits :=
  runPipelineWith makeBox scope targets condition parts cs

/-- Looks up what an element of a list of targets stands for. -/
def resolveItem (scope : Scope) : TargetItem → Except LowerError Entity
  | .name x =>
    match scope.find? x with
    | some e => .ok e
    | none => .error (.unknownName x)
  | .number (.int n) =>
    if n < 0 then .error (.negativeIndex n) else .ok (.qubit (.default n.toNat))
  | .number (.real x) => .error (.targetKind (Number.real x).kindName)
  | .qubit q => .ok (.qubit q)
  | .bit b => .ok (.bit b)
  | .nothing => .error (.targetKind "NoneType")
  | .list => .error (.targetKind "list")

def resolveItems (scope : Scope) : List TargetItem → Except LowerError (List Entity)
  | [] => .ok []
  | i :: is =>
    match resolveItem scope i with
    | .error e => .error e
    | .ok entity => (resolveItems scope is).map (entity :: ·)

/-- The elements of a target. -/
def targetItems (c : Circuit) : Target → List TargetItem
  | .all => c.qubits.map .qubit
  | .name x => [.name x]
  | .index n => [.number (.int n)]
  | .list items => items

/-- Looks up what a target stands for. -/
def resolveTarget (scope : Scope) (c : Circuit) (target : Target) :
    Except LowerError (List Entity) :=
  resolveItems scope (targetItems c target)

/-- The pipeline that an instruction stands for. -/
def resolveInstruction (scope : Scope) : Instruction → Except LowerError (List Part)
  | .parts parts => .ok parts
  | .name x =>
    match scope.find? x with
    | none => .error (.unknownName x)
    | some (.pipeline parts) => .ok parts
    | some e => .error (.instructionKind e.kindName)

/-- How often an action is run: once without a count, and once if the count is zero. -/
def rounds : Option Int → Nat
  | none => 1
  | some n => if n = 0 then 1 else n.toNat

/-- Runs an action. The targets are looked up once for all rounds. -/
def runAction (scope : Scope) (target : Target) (count : Option Int) (instruction : Instruction)
    (cs : Circuits) : Outcome Circuits :=
  match resolveTarget scope cs.main target with
  | .error e => .failed e cs
  | .ok entities =>
    match resolveInstruction scope instruction with
    | .error e => .failed e cs
    | .ok parts =>
      runTimes (runPipeline scope (.ofEntities entities) none parts) (rounds count) cs

/-- The bit that a condition asks for. -/
def resolveCondition (scope : Scope) (name : String) : Except LowerError Bit :=
  match scope.find? name with
  | none => .error (.unknownCondition name)
  | some (.bit b) => .ok b
  | some e => .error (.conditionKind name e.kindName)

/-- Runs the branches of a conditional action on one target. -/
def runBranches (scope : Scope) (bit : Bit) (ifParts : List Part) (elseParts : Option (List Part))
    (target : Entity) (cs : Circuits) : Outcome Circuits :=
  match target with
  | .qubit q =>
    let targets : Targets := ⟨[q], []⟩
    (runPipeline scope targets (some ⟨bit, true⟩) ifParts
      { cs with main := cs.main.ensureQubit q }).andThen fun cs =>
      match elseParts with
      | none => .done cs
      | some parts => runPipeline scope targets (some ⟨bit, false⟩) parts cs
  | e => .failed (.conditionalTargetKind e.kindName) cs

/-- Runs a conditional action. -/
def runConditional (scope : Scope) (target : Target) (condition : String) (ifParts : List Part)
    (elseParts : Option (List Part)) (cs : Circuits) : Outcome Circuits :=
  match resolveCondition scope condition with
  | .error e => .failed e cs
  | .ok bit =>
    let cs := { cs with main := cs.main.ensureBit bit }
    match resolveTarget scope cs.main target with
    | .error e => .failed e cs
    | .ok entities => runEach (runBranches scope bit ifParts elseParts) entities cs

/-- A program under way: the names declared and the circuits built so far. -/
structure Progress where
  scope : Scope
  circuits : Circuits
  deriving DecidableEq, Repr

def Progress.declare (p : Progress) (name : String) (entity : Entity) : Outcome Progress :=
  .done { p with scope := p.scope.declare name entity }

/-- Runs one node. -/
def runNode (node : Node) (p : Progress) : Outcome Progress :=
  match node with
  | .qubit name q => p.declare name (.qubit q)
  | .bit name b => p.declare name (.bit b)
  | .list name items => p.declare name (.list items)
  | .instruction name parts => p.declare name (.pipeline parts)
  | .action target count instruction =>
    (runAction p.scope target count instruction p.circuits).map fun circuits => { p with circuits }
  | .conditional target bit ifParts elseParts =>
    (runConditional p.scope target bit ifParts elseParts p.circuits).map fun circuits =>
      { p with circuits }
  | .foreign => .done p

/-- Before the first node there are no names, and the circuit is empty. -/
def Progress.initial : Progress := ⟨[], ⟨.blank 0, []⟩⟩

def runNodes (nodes : List Node) (p : Progress) : Outcome Progress := runEach runNode nodes p

/-- The circuits of a program. -/
def lower (nodes : List Node) : Outcome Circuits :=
  (runNodes nodes .initial).map Progress.circuits

end GateScript.Lower
