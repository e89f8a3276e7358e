import GateScript.Lower.Run
import GateScript.Proofs.Lower.Outcome

/-!
Gates on single targets and their operands.

A gate whose operands are all found records itself for every target. One that is refused records
nothing, but its partners come before its angles: if an angle is refused, they have been brought in.
-/
namespace GateScript.Lower

open Program Outcome

section Application

variable (rule : GateRule) (angle : AngleReader) (args : List Value) (condition : Option Condition)
  (target : Qubit)

/-- Whatever is read as an angle, a gate brings in some partners and may then record itself. -/
theorem GateRule.apply_ensures {P : Circuit → Prop} {c : Circuit}
    (hpartners : ∀ partners, P (c.ensureQubits partners))
    (hrecord : ∀ partners angles, P ((c.ensureQubits partners).record
      (.gate rule.kind angles (rule.arrange target partners)) condition)) :
    (rule.apply angle args condition target c).Ensures P := by
  unfold GateRule.apply
  split
  · exact ensures_failed.mpr (hpartners [])
  · split
    · exact ensures_failed.mpr (hpartners _)
    · exact ensures_done.mpr (hrecord _ _)

theorem GateRule.apply_uniform : Uniform (rule.apply angle args condition target) := by
  intro c c'
  unfold GateRule.apply
  split
  · rfl
  · split <;> rfl

theorem GateRule.apply_ne_endless (c : Circuit) :
    rule.apply angle args condition target c ≠ endless := by
  unfold GateRule.apply
  split
  · simp
  · split <;> simp

end Application

section Operands

/-- The angles and the partners of a gate. -/
structure GateOperands where
  angles : List Number
  partners : List Qubit

/-- The operands of a gate. The partners are read first. -/
def GateRule.operands (rule : GateRule) (args : List Value) : Except LowerError GateOperands :=
  (rule.readPartners args).bind fun partners =>
    (takeValues numberAngle rule.angles args).map fun angles => ⟨angles, partners⟩

/-- The partners that a gate brings in, whether or not its angles are refused. -/
def GateRule.broughtIn (rule : GateRule) (args : List Value) : List Qubit :=
  (rule.readPartners args).toOption.getD []

/-- A gate on single targets, once its operands are known. -/
def GateRule.enter (rule : GateRule) (operands : GateOperands) (condition : Option Condition)
    (c : Circuit) (q : Qubit) : Circuit :=
  (c.ensureQubits operands.partners).record
    (.gate rule.kind operands.angles (rule.arrange q operands.partners)) condition

variable {rule : GateRule} {args : List Value}

theorem GateRule.apply_eq (rule : GateRule) (args : List Value) (condition : Option Condition)
    (q : Qubit) (c : Circuit) :
    rule.apply numberAngle args condition q c =
      match rule.operands args with
      | .ok operands => .done (rule.enter operands condition c q)
      | .error e => .failed e (c.ensureQubits (rule.broughtIn args)) := by
  unfold GateRule.apply GateRule.operands GateRule.broughtIn
  cases rule.readPartners args with
  | error e => rfl
  | ok partners => cases takeValues numberAngle rule.angles args <;> rfl

variable {targets : List Qubit} {cs : Circuits}

theorem run_each_ok {operands : GateOperands} (h : rule.operands args = .ok operands)
    (box : BoxMaker) (condition : Option Condition) :
    QubitRule.run box (.each rule) args condition targets cs =
      .done { cs with main := targets.foldl (rule.enter operands condition) cs.main } := by
  have hstep : rule.apply numberAngle args condition =
      fun q c => .done (rule.enter operands condition c q) := by
    funext q c
    rw [GateRule.apply_eq, h]
  rw [QubitRule.run, hstep, onMain, runEach_total, map_done]

/-- A gate that is refused fails at its first target. -/
theorem run_each_error {e : LowerError} (h : rule.operands args = .error e) (hne : targets ≠ [])
    (box : BoxMaker) (condition : Option Condition) :
    QubitRule.run box (.each rule) args condition targets cs =
      .failed e { cs with main := cs.main.ensureQubits (rule.broughtIn args) } := by
  obtain ⟨q, targets, rfl⟩ := List.exists_cons_of_ne_nil hne
  rw [QubitRule.run, onMain, runEach_cons, GateRule.apply_eq, h, andThen_failed, map_failed]

theorem operands_of_check {e : LowerError} (hcheck : rule.arity.check args.length = .error e) :
    rule.operands args = .error e := by
  simp [GateRule.operands, GateRule.readPartners, hcheck, Except.bind]

end Operands

end GateScript.Lower
