import GateScript.Number
import GateScript.Text.Quoted

/-! Why a program has no circuit. -/
namespace GateScript.Lower

inductive LowerError where
  /-- A name that is not declared. -/
  | unknownName (name : String)
  /-- A name in a pipeline that stands for something else than a pipeline. -/
  | notPipeline (name : String)
  /-- The instruction of an action stands for something else than a pipeline. -/
  | instructionKind (kind : String)
  | targetKind (kind : String)
  | conditionalTargetKind (kind : String)
  /-- An operand that is neither a qubit nor an integer. -/
  | notQubit
  | negativeIndex (index : Int)
  /-- An angle that is not a number. -/
  | notAngle
  | missingArgument
  /-- The wrong number or kind of arguments, with the text that says how the gate is used. -/
  | usage (text : String)
  | unknownGate (name : String)
  | unknownBitOperation (name : String)
  | barrierConditional
  | phaseConditional
  | boxKind (kind : String)
  | boxConditional
  | bitSourceKind (kind : String)
  | bitValue (value : Int)
  | unknownCondition (name : String)
  | conditionKind (name kind : String)
  deriving DecidableEq, Repr

/-- The text of an error, if it has one. -/
def LowerError.message : LowerError → Option String
  | .unknownName _ => none
  | .notPipeline _ => none
  | .instructionKind kind => some ("pipeline is not a GatePipeline (got " ++ kind ++ ")")
  | .targetKind kind => some ("Unsupported target type: " ++ kind)
  | .conditionalTargetKind kind =>
    some ("Conditional action target is not a Qubit (got " ++ kind ++ ")")
  | .notQubit => none
  | .negativeIndex _ => none
  | .notAngle => none
  | .missingArgument => some "list index out of range"
  | .usage text => some text
  | .unknownGate name => some ("Unknown qubit gate " ++ Text.quoted name)
  | .unknownBitOperation name =>
    some ("Unknown classical bit operation " ++ Text.quoted name ++
      ". Valid: NOT, SET(0/1), AND(b0,b1), OR(b0,b1), XOR(b0,b1), COPY(src)")
  | .barrierConditional =>
    some "BARRIER cannot be used inside a conditional (if/else) branch."
  | .phaseConditional =>
    some ("PHASE (global phase) cannot be used inside a conditional branch — " ++
      "global phase has no physical observable effect when conditioned.")
  | .boxKind kind =>
    some ("CIRCBOX argument must resolve to a named instruction pipeline, got " ++ kind ++
      ". Declare it first as 'name : gate | pipeline'.")
  | .boxConditional => some "CIRCBOX cannot be used inside a conditional branch."
  | .bitSourceKind kind => some ("NOT source must be a classical Bit, got " ++ kind)
  | .bitValue value => some ("SET argument must be 0 or 1, got " ++ toString value)
  | .unknownCondition name =>
    some ("Unknown classical bit '" ++ name ++
      "' used as condition. Declare it first with '<name> : b <index>'.")
  | .conditionKind name kind =>
    some ("'" ++ name ++ "' is not a classical Bit (got " ++ kind ++ ").")

end GateScript.Lower
