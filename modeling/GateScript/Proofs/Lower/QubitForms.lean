import GateScript.Proofs.Lower.Boxes
import GateScript.Proofs.Lower.Likeness

/-!
Qubits by name and by index.

A name that stands for a qubit of the default register and the index of that qubit may be written
for each other where a qubit is meant: as a target, in a list of targets, and as an operand of a
gate that follows its angles. What matters is what the name stands for when the work is done, so
two programs that differ in this way are compared step by step.
-/
namespace GateScript

namespace Program

variable (x : String) (n : Nat)

/-- The same argument, or the name for the index or the index for the name. -/
inductive Argument.Exchanged : Argument → Argument → Prop
  | same (arg : Argument) : Exchanged arg arg
  | toName : Exchanged (.number (.int n)) (.name x)
  | toIndex : Exchanged (.name x) (.number (.int n))

inductive TargetItem.Exchanged : TargetItem → TargetItem → Prop
  | same (item : TargetItem) : Exchanged item item
  | toName : Exchanged (.number (.int n)) (.name x)
  | toIndex : Exchanged (.name x) (.number (.int n))

inductive Target.Exchanged : Target → Target → Prop
  | same (target : Target) : Exchanged target target
  | toName : Exchanged (.index n) (.name x)
  | toIndex : Exchanged (.name x) (.index n)
  | list {items items' : List TargetItem}
      (h : List.Forall₂ (TargetItem.Exchanged x n) items items') :
      Exchanged (.list items) (.list items')

/-- The other qubits of a gate stand after its angles. -/
inductive GateCall.Exchanged : GateCall → GateCall → Prop
  | same (call : GateCall) : Exchanged call call
  | partners {name : String} {rule : Lower.GateRule} {angles partners partners' : List Argument}
      (hrule : Lower.qubitRules.lookup name = some (.each rule))
      (hangles : angles.length = rule.angles)
      (h : List.Forall₂ (Argument.Exchanged x n) partners partners') :
      Exchanged ⟨name, angles ++ partners⟩ ⟨name, angles ++ partners'⟩

inductive Part.Exchanged : Part → Part → Prop
  | gate {call call' : GateCall} (h : call.Exchanged x n call') :
      Exchanged (.gate call) (.gate call')
  | named (r : Reference) : Exchanged (.named r) (.named r)

inductive Instruction.Exchanged : Instruction → Instruction → Prop
  | parts {parts parts' : List Part} (h : List.Forall₂ (Part.Exchanged x n) parts parts') :
      Exchanged (.parts parts) (.parts parts')
  | name (y : String) : Exchanged (.name y) (.name y)

inductive Node.Exchanged : Node → Node → Prop
  | qubit (name : String) (q : Qubit) : Exchanged (.qubit name q) (.qubit name q)
  | bit (name : String) (b : Bit) : Exchanged (.bit name b) (.bit name b)
  | list (name : String) (items : List String) : Exchanged (.list name items) (.list name items)
  | instruction (name : String) {parts parts' : List Part}
      (h : List.Forall₂ (Part.Exchanged x n) parts parts') :
      Exchanged (.instruction name parts) (.instruction name parts')
  | action {target target' : Target} (count : Option Int) {what what' : Instruction}
      (htarget : target.Exchanged x n target') (hwhat : what.Exchanged x n what') :
      Exchanged (.action target count what) (.action target' count what')
  | conditional {target target' : Target} (name : String) {ifParts ifParts' : List Part}
      {elseParts elseParts' : Option (List Part)} (htarget : target.Exchanged x n target')
      (hif : List.Forall₂ (Part.Exchanged x n) ifParts ifParts')
      (helse : Option.Rel (List.Forall₂ (Part.Exchanged x n)) elseParts elseParts') :
      Exchanged (.conditional target name ifParts elseParts)
        (.conditional target' name ifParts' elseParts')
  | foreign : Exchanged .foreign .foreign

/-- The parts that are written in a node. -/
def Node.parts : Node → List Part
  | .instruction _ ps => ps
  | .action _ _ (.parts ps) => ps
  | .conditional _ _ ifParts elseParts => ifParts ++ elseParts.getD []
  | _ => []

/-- Whether a part is to make a box. -/
def Part.boxes : Part → Bool
  | .gate call => call.name == "CIRCBOX"
  | .named _ => false

/-- No part of a node is to make a box. -/
def Node.Boxless (node : Node) : Prop := ∀ part ∈ node.parts, part.boxes = false

end Program

namespace Lower

open Program Outcome Config

/-- Where the work in hand of two programs is written differently: the target of an action, or a
part. -/
def Task.Differs : Task → Task → Prop
  | .node (.action target _ _), .node (.action target' _ _) => target ≠ target'
  | .node (.conditional target _ _ _), .node (.conditional target' _ _ _) => target ≠ target'
  | .part _ _ y, .part _ _ y' => y ≠ y'
  | _, _ => False

/-- The work in hand. -/
def Config.task? : Config → Option Task
  | working _ (task :: _) => some task
  | _ => none

/-- Each time two programs come to something that they write differently, the name stands for the
qubit. -/
def BoundWhereUsed (x : String) (n : Nat) (nodes nodes' : List Node) : Prop :=
  ∀ k task task', (step^[k] (start nodes)).task? = some task →
    (step^[k] (start nodes')).task? = some task' → task.Differs task' →
    (step^[k] (start nodes)).progress.scope.find? x = some (.qubit (.default n))

section Exchange

variable (x : String) (n : Nat)

def ExchangedPart (part part' : Part) : Prop := part.boxes = false ∧ part.Exchanged x n part'

/-- Two programs that write some qubits differently. -/
def exchanged : Likeness where
  rename := id
  part := ExchangedPart x n
  node m m' := m.Boxless ∧ m.Exchanged x n m'
  scope scope scope' := ∀ y, Option.Rel (Entity.Alike (List.Forall₂ (ExchangedPart x n)))
    (scope.find? y) (scope'.find? y)

end Exchange

section Lookups

variable {x : String} {n : Nat} {scope scope' : Scope} (hscope : (exchanged x n).scope scope scope')

include hscope

theorem found_exchanged (y : String) :
    Found id (List.Forall₂ (ExchangedPart x n)) scope scope' y y := ⟨rfl, hscope y⟩

theorem found_exchanged_unit (y : String) : Found id (fun _ _ => True) scope scope' y y :=
  (found_exchanged hscope y).imp fun _ _ _ => trivial

theorem bound_exchanged (hbound : scope.find? x = some (.qubit (.default n))) :
    scope'.find? x = some (.qubit (.default n)) := by
  have hx := hscope x
  rw [hbound] at hx
  generalize scope'.find? x = found at hx
  cases hx with
  | some h => cases h with | qubit q => rfl

theorem resolveItem_exchanged_same (item : TargetItem) :
    Checks id Entity.SameUnit (resolveItem scope item) (resolveItem scope' item) := by
  by_cases hname : ∃ y, item = .name y
  · obtain ⟨y, rfl⟩ := hname
    exact resolveItem_name (found_exchanged_unit hscope y)
  · exact resolveItem_other (not_exists.mp hname)

theorem resolveItem_exchanged (hbound : scope.find? x = some (.qubit (.default n)))
    {item item' : TargetItem} (h : item.Exchanged x n item') :
    Checks id Entity.SameUnit (resolveItem scope item) (resolveItem scope' item') := by
  have hbound' := bound_exchanged hscope hbound
  have hindex : ∀ scope, resolveItem scope (.number (.int n)) = .ok (.qubit (.default n)) := by
    intro scope
    rw [resolveItem, if_neg (by omega), Int.toNat_natCast]
  cases h with
  | same item => exact resolveItem_exchanged_same hscope item
  | toName =>
    rw [hindex, resolveItem, hbound']
    exact .ok (.qubit _)
  | toIndex =>
    rw [hindex, resolveItem, hbound]
    exact .ok (.qubit _)

theorem resolveTarget_exchanged {target target' : Target} (h : target.Exchanged x n target')
    (hbound : target ≠ target' → scope.find? x = some (.qubit (.default n))) (c : Circuit) :
    Checks id (List.Forall₂ Entity.SameUnit) (resolveTarget scope c target)
      (resolveTarget scope' c target') := by
  apply resolveItems_alike
  by_cases heq : target = target'
  · subst heq
    rw [List.forall₂_same]
    exact fun item _ => resolveItem_exchanged_same hscope item
  · replace hbound := hbound heq
    cases h with
    | same target => exact absurd rfl heq
    | toName => exact .cons (resolveItem_exchanged hscope hbound .toName) .nil
    | toIndex => exact .cons (resolveItem_exchanged hscope hbound .toIndex) .nil
    | list hitems => exact hitems.imp fun _ _ => resolveItem_exchanged hscope hbound

theorem arguments_exchanged_same (args : List Argument) :
    List.Forall₂ (Arguments id (fun _ _ => True) scope scope') args args := by
  rw [List.forall₂_same]
  intro arg _
  cases arg with
  | number m => exact .number m
  | name y => exact .name (found_exchanged_unit hscope y)

end Lookups

section Operands

/-- Values that stand for the same qubit, or are refused alike. -/
def Value.SameQubit (v v' : Value) : Prop := v'.qubit = v.qubit.mapError (LowerError.rename id)

variable {x : String} {n : Nat} {scope scope' : Scope} (hscope : (exchanged x n).scope scope scope')

include hscope

theorem resolveArg_exchanged (hbound : scope.find? x = some (.qubit (.default n)))
    {arg arg' : Argument} (h : arg.Exchanged x n arg') :
    Checks id Value.SameQubit (resolveArg scope arg) (resolveArg scope' arg') := by
  have hbound' := bound_exchanged hscope hbound
  have hindex : (Value.number (.int n)).qubit = .ok (.default n) := by
    rw [Value.qubit, if_neg (by omega), Int.toNat_natCast]
  cases h with
  | same arg =>
    have hsame := arguments_exchanged_same hscope [arg]
    have harg := (List.forall₂_cons.mp hsame).1
    exact harg.checks.imp fun _ _ _ _ hv => qubit_alike id hv
  | toName =>
    rw [resolveArg, resolveArg, hbound']
    refine .ok ?_
    rw [Value.SameQubit, hindex]
    rfl
  | toIndex =>
    rw [resolveArg, resolveArg, hbound]
    refine .ok ?_
    rw [Value.SameQubit, hindex]
    rfl

/-- The operands of a gate are the same if its angles are and its other qubits are exchanged. -/
theorem operands_exchanged (hbound : scope.find? x = some (.qubit (.default n))) {rule : GateRule}
    {angles partners partners' : List Argument} (hangles : angles.length = rule.angles)
    (h : List.Forall₂ (Argument.Exchanged x n) partners partners') :
    Checks id (rule.ReadsAlike id)
      (resolveArgs scope (angles ++ partners)) (resolveArgs scope' (angles ++ partners')) := by
  have hsame : List.Forall₂ (Argument.Exchanged x n) angles angles := by
    rw [List.forall₂_same]
    exact fun arg _ => .same arg
  have hargs := List.rel_append hsame h
  have hchecks := resolveArgs_checks (hargs.imp fun _ _ => resolveArg_exchanged hscope hbound)
  refine hchecks.imp fun vs vs' hvs hvs' hqubits => ?_
  -- the angles are read from the first values, and these come from the same arguments
  have htake := resolveArgs_take hvs rule.angles
  have htake' := resolveArgs_take hvs' rule.angles
  rw [← hangles, List.take_left] at htake htake'
  have hfirst := resolveArgs_checks
    ((arguments_exchanged_same hscope angles).imp fun _ _ => Arguments.checks)
  rw [htake, htake'] at hfirst
  cases hfirst with
  | ok hvalues =>
    rw [hangles] at hvalues
    constructor
    · apply readPartners_mapError id rule hqubits.length_eq.symm
      exact takeValues_mapError id (List.forall₂_drop rule.angles hqubits) _
    · rw [← takeValues_take, ← takeValues_take _ _ vs]
      exact takeValues_mapError id (hvalues.imp fun _ _ => angle_alike id) _

end Operands

section Steps

variable {x : String} {n : Nat} {p p' : Progress} (hp : (exchanged x n).Progresses p p')

include hp

theorem moveCall_partners (origin : Origin) (targets : Targets) {call call' : GateCall}
    {rule : GateRule} (hrule : qubitRules.lookup call.name = some (.each rule))
    (hname : call'.name = call.name)
    (hargs : Checks id (rule.ReadsAlike id)
      (resolveArgs p.scope call.args) (resolveArgs p'.scope call'.args)) :
    (exchanged x n).Moves (moveCall p origin targets call) (moveCall p' origin targets call') := by
  have hprepare := prepare_checks targets hname hargs
  apply Likeness.moveCall_of_run hp hname (by simp [hrule])
  refine hprepare.imp fun a a' ha _ halike cs => ?_
  obtain ⟨-, hqubit, hbit⟩ := prepare_ok ha
  have hbit : a.bitRule = none := by
    rcases findRule_ok hbit with hnone | hfound
    · exact hnone
    · exact hfound.trans (lookup_bitRules_eq_none hrule)
  obtain ⟨args, qubitRule, bitRule⟩ := a
  obtain ⟨args', _, _⟩ := a'
  obtain ⟨hoperands, rfl, rfl⟩ := halike
  dsimp only at hqubit hbit hoperands
  subst hbit
  rcases findRule_ok hqubit with rfl | rfl
  · rfl
  · rw [hrule]
    have heach := hoperands.run origin.condition targets.qubits
      { cs with main := cs.main.ensureQubits targets.qubits }
    dsimp only [Prepared.run]
    rw [heach]
    refine andThen_mapError (fun cs => ?_) _
    rfl

theorem moveCall_exchanged (origin : Origin) (targets : Targets) {call call' : GateCall}
    (h : call.Exchanged x n call') (hname : call.name ≠ "CIRCBOX")
    (hbound : call ≠ call' → p.scope.find? x = some (.qubit (.default n))) :
    (exchanged x n).Moves (moveCall p origin targets call) (moveCall p' origin targets call') := by
  by_cases heq : call = call'
  · subst heq
    have hbox : qubitRules.lookup call.name ≠ some .box := fun h => hname (name_of_lookup_box h)
    have hprepare := prepare_alike targets rfl (arguments_exchanged_same hp.scope call.args)
    apply Likeness.moveCall_of_run hp rfl hbox
    exact hprepare.imp fun a a' _ _ ha => preparedRun_alike id ha targets origin.condition
  · replace hbound := hbound heq
    cases h with
    | same call => exact absurd rfl heq
    | partners hrule hangles h =>
      exact moveCall_partners hp origin targets hrule rfl
        (operands_exchanged hp.scope hbound hangles h)

theorem movePart_exchanged (origin : Origin) (targets : Targets) {part part' : Part}
    (h : ExchangedPart x n part part')
    (hbound : part ≠ part' → p.scope.find? x = some (.qubit (.default n))) :
    (exchanged x n).Moves ((Task.part origin targets part).move p)
      ((Task.part origin targets part').move p') := by
  obtain ⟨hboxless, hpart⟩ := h
  cases hpart with
  | @gate call call' h =>
    have hname : call.name ≠ "CIRCBOX" := by simpa [Part.boxes] using hboxless
    exact moveCall_exchanged hp origin targets h hname fun hne => hbound (by simpa using hne)
  | named r =>
    exact Likeness.moveNamed_alike hp origin targets rfl (found_exchanged hp.scope r.name)

theorem declare_exchanged (name : String) {e e' : Entity}
    (h : e.Alike (List.Forall₂ (ExchangedPart x n)) e') :
    (exchanged x n).Moves (.opens ⟨p.scope.declare name e, p.circuits⟩ [])
      (.opens ⟨p'.scope.declare name e', p'.circuits⟩ []) := by
  refine .opens ⟨fun y => ?_, hp.circuits⟩ .nil
  unfold Scope.declare Scope.find?
  rw [List.lookup_cons, List.lookup_cons]
  by_cases hy : y == name
  · simpa only [hy] using Option.Rel.some h
  · have hfound : Option.Rel _ (p.scope.lookup y) (p'.scope.lookup y) := hp.scope y
    simpa only [hy] using hfound

theorem moveNode_exchanged {node node' : Node} (h : node.Exchanged x n node')
    (hboxless : node.Boxless)
    (hbound : (Task.node node).Differs (.node node') →
      p.scope.find? x = some (.qubit (.default n))) :
    (exchanged x n).Moves ((Task.node node).move p) ((Task.node node').move p') := by
  cases h with
  | qubit name q => exact declare_exchanged hp name (.qubit q)
  | bit name b => exact declare_exchanged hp name (.bit b)
  | list name items => exact declare_exchanged hp name (.list items items)
  | instruction name h =>
    exact declare_exchanged hp name (.pipeline ((List.forall₂_and_left _ _).mpr ⟨hboxless, h⟩))
  | action count htarget hwhat =>
    apply Likeness.moveAction_alike hp
    · exact resolveTarget_exchanged hp.scope htarget hbound
    · cases hwhat with
      | parts h => exact .ok ((List.forall₂_and_left _ _).mpr ⟨hboxless, h⟩)
      | name y => exact resolveInstruction_name (found_exchanged hp.scope y)
  | @conditional _ _ name ifParts _ elseParts _ htarget hif helse =>
    have hboxless := List.forall_mem_append.mp hboxless
    have hif := (List.forall₂_and_left _ _).mpr ⟨hboxless.1, hif⟩
    apply Likeness.moveConditional_alike hp _ (found_exchanged hp.scope name) hif
    · cases helse with
      | none => exact .none
      | some h => exact .some ((List.forall₂_and_left _ _).mpr ⟨hboxless.2, h⟩)
    · exact resolveTarget_exchanged hp.scope htarget hbound
  | foreign => exact .opens hp .nil

theorem move_exchanged {task task' : Task} (htask : (exchanged x n).Tasks task task')
    (hbound : task.Differs task' → p.scope.find? x = some (.qubit (.default n))) :
    (exchanged x n).Moves (task.move p) (task'.move p') := by
  cases htask with
  | node h => exact moveNode_exchanged hp h.2 h.1 hbound
  | branches bit hif helse htarget => exact Likeness.moveBranches_alike hp bit hif helse htarget
  | part origin targets h => exact movePart_exchanged hp origin targets h hbound

end Steps

section Runs

variable {x : String} {n : Nat} {nodes nodes' : List Node}

theorem configs_exchanged (hnodes : List.Forall₂ (Node.Exchanged x n) nodes nodes')
    (hboxless : ∀ node ∈ nodes, node.Boxless) (hbound : BoundWhereUsed x n nodes nodes')
    (k : Nat) :
    (exchanged x n).Configs (step^[k] (start nodes)) (step^[k] (start nodes')) := by
  induction k with
  | zero =>
    refine .working ⟨fun y => .none, rfl⟩ ?_
    rw [List.forall₂_map_left_iff, List.forall₂_map_right_iff]
    exact ((List.forall₂_and_left _ _).mpr ⟨hboxless, hnodes⟩).imp fun _ _ h => .node h
  | succ k ih =>
    rw [Function.iterate_succ_apply', Function.iterate_succ_apply']
    refine ih.step fun p p' task task' todo todo' hc hc' hp htask => ?_
    apply move_exchanged hp htask
    intro hdiffers
    have hx := hbound k task task' (by rw [hc]; rfl) (by rw [hc']; rfl) hdiffers
    rwa [hc] at hx

end Runs

end Lower

end GateScript
