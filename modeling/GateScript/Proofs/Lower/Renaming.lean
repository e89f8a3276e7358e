import GateScript.Proofs.Lower.Likeness
import Mathlib.Logic.Equiv.Basic

/-!
The choice of names.

A program may be given other names, as long as different names stay different: it is lowered to the
same circuits, and an error about a name is about the new name. Names of gates and of registers are
not names of the program.
-/
namespace GateScript

namespace Program

variable (r s : String → String)

def Argument.rename : Argument → Argument
  | .name x => .name (r x)
  | .number n => .number n

def GateCall.rename (call : GateCall) : GateCall := ⟨call.name, call.args.map (Argument.rename r)⟩

def Reference.rename (reference : Reference) : Reference := ⟨r reference.name, reference.reversed⟩

def Part.rename : Part → Part
  | .gate call => .gate (call.rename r)
  | .named reference => .named (reference.rename r)

def TargetItem.rename : TargetItem → TargetItem
  | .name x => .name (r x)
  | item => item

/-- All qubits at once are no name. -/
def Target.rename : Target → Target
  | .all => .all
  | .name x => .name (r x)
  | .index n => .index n
  | .list items => .list (items.map (TargetItem.rename r))

def Instruction.rename : Instruction → Instruction
  | .parts ps => .parts (ps.map (Part.rename r))
  | .name x => .name (r x)

/-- Renames what a node declares and what it refers to. The names in a declared list are never
looked up, so that they may be renamed in a way of their own. -/
def Node.rename : Node → Node
  | .qubit name q => .qubit (r name) q
  | .bit name b => .bit (r name) b
  | .list name items => .list (r name) (items.map s)
  | .instruction name parts => .instruction (r name) (parts.map (Part.rename r))
  | .action target count what => .action (target.rename r) count (what.rename r)
  | .conditional target name ifParts elseParts =>
    .conditional (target.rename r) (r name) (ifParts.map (Part.rename r))
      (elseParts.map (List.map (Part.rename r)))
  | .foreign => .foreign

end Program

namespace Lower

open Program Outcome Config

section Scopes

variable (r s : String → String)

def Entity.rename : Entity → Entity
  | .qubit q => .qubit q
  | .bit b => .bit b
  | .list names => .list (names.map s)
  | .pipeline parts => .pipeline (parts.map (Part.rename r))

def Scope.rename (scope : Scope) : Scope :=
  scope.map fun entry => (r entry.1, entry.2.rename r s)

/-- A program and the same one with other names. -/
def renamed : Likeness where
  rename := r
  part x x' := x' = x.rename r
  node n n' := n' = n.rename r s
  scope scope scope' := scope' = Scope.rename r s scope

variable {r s}

/-- Different names stay different, so a new name leads to what the old one led to. -/
theorem find?_rename (hr : Function.Injective r) (scope : Scope) (x : String) :
    (Scope.rename r s scope).find? (r x) = (scope.find? x).map (Entity.rename r s) := by
  induction scope with
  | nil => rfl
  | cons entry scope ih =>
    obtain ⟨y, e⟩ := entry
    unfold Scope.find? at ih ⊢
    rw [Scope.rename, List.map_cons, List.lookup_cons, List.lookup_cons]
    by_cases hxy : x = y
    · simp [hxy]
    · have hne : r x ≠ r y := fun h => hxy (hr h)
      rw [beq_false_of_ne hne, beq_false_of_ne hxy]
      exact ih

theorem forall₂_rename (parts : List Part) :
    List.Forall₂ (renamed r s).part parts (parts.map (Part.rename r)) := by
  rw [List.forall₂_map_right_iff, List.forall₂_same]
  exact fun _ _ => rfl

section Lookups

variable (hr : Function.Injective r) {A : List Part → List Part → Prop}

theorem Entity.alike_rename (hA : ∀ parts, A parts (parts.map (Part.rename r))) (e : Entity) :
    e.Alike A (e.rename r s) := by
  cases e with
  | qubit q => exact .qubit q
  | bit b => exact .bit b
  | list names => exact .list names _
  | pipeline parts => exact .pipeline (hA parts)

include hr

theorem found_rename (hA : ∀ parts, A parts (parts.map (Part.rename r))) (scope : Scope)
    (x : String) :
    Found r A scope (Scope.rename r s scope) x (r x) := by
  refine ⟨rfl, ?_⟩
  rw [find?_rename hr]
  cases scope.find? x with
  | none => exact .none
  | some e => exact .some (Entity.alike_rename hA e)

theorem arguments_rename (hA : ∀ parts, A parts (parts.map (Part.rename r))) (scope : Scope)
    (args : List Argument) :
    List.Forall₂ (Arguments r A scope (Scope.rename r s scope)) args
      (args.map (Argument.rename r)) := by
  rw [List.forall₂_map_right_iff, List.forall₂_same]
  intro arg _
  cases arg with
  | name x => exact .name (found_rename hr hA scope x)
  | number n => exact .number n

theorem resolveItem_rename (scope : Scope) (item : TargetItem) :
    Checks r Entity.SameUnit (resolveItem scope item)
      (resolveItem (Scope.rename r s scope) (item.rename r)) := by
  cases item with
  | name x => exact resolveItem_name (found_rename hr (fun _ => trivial) scope x)
  | _ => exact resolveItem_other (by simp)

theorem resolveTarget_rename (scope : Scope) (target : Target) (c : Circuit) :
    Checks r (List.Forall₂ Entity.SameUnit) (resolveTarget scope c target)
      (resolveTarget (Scope.rename r s scope) c (target.rename r)) := by
  have hitems : targetItems c (target.rename r) =
      (targetItems c target).map (TargetItem.rename r) := by
    cases target with
    | all => simp [targetItems, Target.rename, TargetItem.rename]
    | _ => rfl
  unfold resolveTarget
  rw [hitems]
  apply resolveItems_alike
  rw [List.forall₂_map_right_iff, List.forall₂_same]
  exact fun item _ => resolveItem_rename hr scope item

theorem resolveInstruction_rename (hA : ∀ parts, A parts (parts.map (Part.rename r)))
    (scope : Scope) (instruction : Instruction) :
    Checks r A (resolveInstruction scope instruction)
      (resolveInstruction (Scope.rename r s scope) (instruction.rename r)) := by
  cases instruction with
  | parts parts => exact .ok (hA parts)
  | name x => exact resolveInstruction_name (found_rename hr hA scope x)

theorem inBox_rename (parts : List Part) :
    List.Forall₂ (renamed r s).InBox parts (parts.map (Part.rename r)) := by
  rw [List.forall₂_map_right_iff, List.forall₂_same]
  intro part _
  cases part with
  | gate call =>
    have hargs : List.Forall₂ (Arguments r (fun _ _ => True) [] (Scope.rename r s []))
        call.args (call.args.map (Argument.rename r)) :=
      arguments_rename hr (fun _ => trivial) [] call.args
    exact Likeness.inBox_gate rfl hargs
  | named reference => exact Likeness.inBox_named rfl

end Lookups

end Scopes

section Steps

variable {r s : String → String} (hr : Function.Injective r) {p p' : Progress}
  (hp : (renamed r s).Progresses p p')

include hr hp

theorem moveNode_rename (node : Node) :
    (renamed r s).Moves ((Task.node node).move p) ((Task.node (node.rename r s)).move p') := by
  have hscope : p'.scope = Scope.rename r s p.scope := hp.scope
  have hdeclare : ∀ name (e : Entity), (renamed r s).Moves
      (.opens { p with scope := p.scope.declare name e } [])
      (.opens { p' with scope := p'.scope.declare (r name) (e.rename r s) } []) := by
    intro name e
    refine .opens ⟨?_, hp.circuits⟩ .nil
    show p'.scope.declare _ _ = _
    rw [hscope]
    rfl
  cases node with
  | qubit name q => exact hdeclare name (.qubit q)
  | bit name b => exact hdeclare name (.bit b)
  | list name items => exact hdeclare name (.list items)
  | instruction name parts => exact hdeclare name (.pipeline parts)
  | action target count instruction =>
    apply Likeness.moveAction_alike hp
    · rw [hscope]
      exact resolveTarget_rename hr p.scope target
    · rw [hscope]
      exact resolveInstruction_rename hr forall₂_rename p.scope instruction
  | conditional target bit ifParts elseParts =>
    have hfound : Found r (List.Forall₂ (renamed r s).part) p.scope p'.scope bit (r bit) := by
      rw [hscope]
      exact found_rename hr forall₂_rename p.scope bit
    apply Likeness.moveConditional_alike hp _ hfound
    · exact forall₂_rename ifParts
    · cases elseParts with
      | none => exact .none
      | some parts => exact .some (forall₂_rename parts)
    · rw [hscope]
      exact resolveTarget_rename hr p.scope target
  | foreign => exact .opens hp .nil

theorem movePart_rename (origin : Origin) (targets : Targets) (part : Part) :
    (renamed r s).Moves ((Task.part origin targets part).move p)
      ((Task.part origin targets (part.rename r)).move p') := by
  have hscope : p'.scope = Scope.rename r s p.scope := hp.scope
  cases part with
  | gate call =>
    have hargs : List.Forall₂ (Arguments r (List.Forall₂ (renamed r s).InBox) p.scope p'.scope)
        call.args (call.args.map (Argument.rename r)) := by
      rw [hscope]
      exact arguments_rename hr (inBox_rename hr) p.scope call.args
    show (renamed r s).Moves (moveCall p origin targets call)
      (moveCall p' origin targets (call.rename r))
    exact Likeness.moveCall_alike hp rfl hargs
  | named reference =>
    have hfound : Found r (List.Forall₂ (renamed r s).part) p.scope p'.scope reference.name
        (r reference.name) := by
      rw [hscope]
      exact found_rename hr forall₂_rename p.scope reference.name
    show (renamed r s).Moves (moveNamed p origin targets reference)
      (moveNamed p' origin targets (reference.rename r))
    exact Likeness.moveNamed_alike hp origin targets rfl hfound

theorem move_rename {task task' : Task} (htask : (renamed r s).Tasks task task') :
    (renamed r s).Moves (task.move p) (task'.move p') := by
  cases htask with
  | node h =>
    obtain rfl := h
    exact moveNode_rename hr hp _
  | branches bit hif helse htarget => exact Likeness.moveBranches_alike hp bit hif helse htarget
  | part origin targets h =>
    obtain rfl := h
    exact movePart_rename hr hp origin targets _

end Steps

theorem configs_rename {r s : String → String} (hr : Function.Injective r) (nodes : List Node)
    (n : Nat) :
    (renamed r s).Configs (step^[n] (start nodes))
      (step^[n] (start (nodes.map (Node.rename r s)))) := by
  induction n with
  | zero =>
    refine .working ⟨rfl, rfl⟩ ?_
    rw [List.map_map, List.forall₂_map_left_iff, List.forall₂_map_right_iff, List.forall₂_same]
    exact fun _ _ => .node rfl
  | succ n ih =>
    rw [Function.iterate_succ_apply', Function.iterate_succ_apply']
    exact ih.step fun _ _ _ _ _ _ _ _ hp htask => move_rename hr hp htask

/-- Lowering does not depend on the choice of names. With other names, different for different
ones, a program records the same circuits step by step; it succeeds, fails or goes on forever as
before, and the name in an error is the new one. -/
theorem lower_rename {r : String → String} (hr : Function.Injective r) (s : String → String)
    (nodes : List Node) :
    (∀ n, (step^[n] (start (nodes.map (Node.rename r s)))).circuits =
      (step^[n] (start nodes)).circuits) ∧
    lower (nodes.map (Node.rename r s)) = (lower nodes).mapError (LowerError.rename r) :=
  Likeness.lower_of_configs (configs_rename hr nodes)

/-- A program that fails at a name after it has used others. -/
def misspelled : List Node :=
  [.qubit "alice" (.default 0), .instruction "turn" [.gate ⟨"H", []⟩],
    .action (.name "alice") none (.name "turn"),
    .action (.name "bob") none (.parts [.gate ⟨"CX", [.name "alice"]⟩])]

theorem lower_rename_swapped :
    Equiv.swap "alice" "bob" "*" = "*" ∧
    ∃ cs, lower misspelled = failed (.unknownName "bob") cs ∧
      lower (misspelled.map (Node.rename (Equiv.swap "alice" "bob") id)) =
        failed (.unknownName "alice") cs := by
  refine ⟨by decide, (step^[5] (start misspelled)).progress.circuits, by decide, ?_⟩
  have hlower := (lower_rename (Equiv.swap "alice" "bob").injective id misspelled).2
  rw [hlower]
  decide

end Lower

end GateScript
