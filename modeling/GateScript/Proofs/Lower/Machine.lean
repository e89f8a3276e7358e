import GateScript.Proofs.Lower.Call
import GateScript.Proofs.Lower.Pipeline
import Mathlib.Logic.Function.Iterate

/-!
Lowering step by step.

A machine keeps a list of what is left to do and does the first of it, so that a program can be
stopped after any number of steps, also one that has no end. A step runs one node, opens one named
pipeline or runs one gate call; a box takes a step for every part of its body. The machine stops
exactly where lowering ends, with the same circuits and the same error.
-/
namespace GateScript.Lower

open Program Outcome

/-- Which pipeline of an action a part comes from. -/
inductive Origin where
  | unconditional
  /-- The branch for a bit that is set. -/
  | ifBranch (bit : Bit)
  /-- The branch for a bit that is not set. -/
  | elseBranch (bit : Bit)
  deriving DecidableEq, Repr

def Origin.condition : Origin → Option Condition
  | .unconditional => none
  | .ifBranch bit => some ⟨bit, true⟩
  | .elseBranch bit => some ⟨bit, false⟩

/-- A piece of work. -/
inductive Task where
  | node (node : Node)
  /-- Both branches of a conditional action, for one target. -/
  | branches (bit : Bit) (ifParts : List Part) (elseParts : Option (List Part)) (target : Entity)
  | part (origin : Origin) (targets : Targets) (part : Part)
  deriving DecidableEq, Repr

/-- What a piece of work turns into. -/
inductive Move where
  /-- It is done, save for other pieces that come first now. -/
  | opens (progress : Progress) (tasks : List Task)
  /-- The body of a box has to be run first. -/
  | boxes (progress : Progress) (body : List Part) (targets : List Qubit)
  | stops (error : LowerError) (progress : Progress)
  | idles
  deriving DecidableEq, Repr

def Move.ofOutcome : Outcome Progress → Move
  | .done p => opens p []
  | .failed e p => stops e p
  | .endless => idles

def Progress.onMain (p : Progress) (change : Circuit → Circuit) : Progress :=
  ⟨p.scope, { p.circuits with main := change p.circuits.main }⟩

def moveCall (p : Progress) (origin : Origin) (targets : Targets) (call : GateCall) : Move :=
  match prepare p.scope targets call with
  | .error e => .stops e p
  | .ok prepared =>
    if prepared.qubitRule = some .box then
      let p := p.onMain (·.ensureQubits targets.qubits)
      match boxBody prepared.args origin.condition with
      | .error e => .stops e p
      | .ok body => .boxes p body targets.qubits
    else
      .ofOutcome
        ((prepared.run noBox targets origin.condition p.circuits).map (Progress.mk p.scope))

def moveNamed (p : Progress) (origin : Origin) (targets : Targets) (r : Reference) : Move :=
  match p.scope.find? r.name with
  | some (.pipeline parts) => .opens p ((oriented r parts).map (.part origin targets))
  | _ => .stops (referenceError p.scope r) p

def moveBranches (p : Progress) (bit : Bit) (ifParts : List Part) (elseParts : Option (List Part)) :
    Entity → Move
  | .qubit q =>
    .opens (p.onMain (·.ensureQubit q))
      (ifParts.map (.part (.ifBranch bit) ⟨[q], []⟩) ++
        (elseParts.getD []).map (.part (.elseBranch bit) ⟨[q], []⟩))
  | e => .stops (.conditionalTargetKind e.kindName) p

def moveAction (p : Progress) (target : Target) (count : Option Int) (instruction : Instruction) :
    Move :=
  match resolveTarget p.scope p.circuits.main target with
  | .error e => .stops e p
  | .ok entities =>
    match resolveInstruction p.scope instruction with
    | .error e => .stops e p
    | .ok parts =>
      .opens p ((List.replicate (rounds count) parts).flatten.map
        (.part .unconditional (.ofEntities entities)))

def moveConditional (p : Progress) (target : Target) (name : String) (ifParts : List Part)
    (elseParts : Option (List Part)) : Move :=
  match resolveCondition p.scope name with
  | .error e => .stops e p
  | .ok bit =>
    let p := p.onMain (·.ensureBit bit)
    match resolveTarget p.scope p.circuits.main target with
    | .error e => .stops e p
    | .ok entities => .opens p (entities.map (.branches bit ifParts elseParts))

/-- Does a piece of work as far as one step goes. -/
def Task.move (p : Progress) : Task → Move
  | .node (.action target count instruction) => moveAction p target count instruction
  | .node (.conditional target name ifParts elseParts) =>
    moveConditional p target name ifParts elseParts
  | .node n => .ofOutcome (runNode n p)
  | .branches bit ifParts elseParts target => moveBranches p bit ifParts elseParts target
  | .part origin targets (.gate call) => moveCall p origin targets call
  | .part origin targets (.named r) => moveNamed p origin targets r

inductive Config where
  | working (progress : Progress) (todo : List Task)
  /-- A box is being built for some targets; the rest of its body comes first. -/
  | boxing (progress : Progress) (box : Circuit) (body : List Part) (targets : List Qubit)
      (todo : List Task)
  | stopped (error : LowerError) (progress : Progress)
  deriving DecidableEq, Repr

namespace Config

def progress : Config → Progress
  | working p _ => p
  | boxing p _ _ _ _ => p
  | stopped _ p => p

def todo : Config → List Task
  | working _ todo => todo
  | boxing _ _ _ _ todo => todo
  | stopped _ _ => []

/-- The circuit of the program. -/
def main (c : Config) : Circuit := c.progress.circuits.main

/-- The boxes begun so far, the one being built included. -/
def boxes : Config → List Circuit
  | working p _ => p.circuits.boxes
  | boxing p box _ _ _ => p.circuits.boxes ++ [box]
  | stopped _ p => p.circuits.boxes

/-- Every circuit created so far. -/
def circuits (c : Config) : List Circuit := c.main :: c.boxes

/-- Nothing is left to do. -/
def Halted : Config → Prop
  | working _ todo => todo = []
  | boxing _ _ _ _ _ => False
  | stopped _ _ => True

def start (nodes : List Node) : Config := working .initial (nodes.map .node)

end Config

open Config

/-- The circuits once a box is put in its place. -/
def Circuits.closeBox (cs : Circuits) (box : Circuit) (targets : List Qubit) : Circuits :=
  ⟨(cs.main.ensureQubits targets).record (.box (cs.boxes.length + 1) targets) none,
    cs.boxes ++ [box]⟩

/-- Runs a part of the body of a box. -/
def runBoxPart : Part → Circuits → Outcome Circuits := runPart noBox [] ⟨[.default 0], []⟩ none

/-- Does the first part of the body of a box, or closes it. -/
def stepBox (p : Progress) (box : Circuit) (targets : List Qubit) (todo : List Task) :
    List Part → Config
  | [] => working ⟨p.scope, p.circuits.closeBox box targets⟩ todo
  | part :: body =>
    match runBoxPart part ⟨box, []⟩ with
    | .done inner => boxing p inner.main body targets todo
    | .failed e inner =>
      stopped e ⟨p.scope, { p.circuits with boxes := p.circuits.boxes ++ [inner.main] }⟩
    | .endless => boxing p box (part :: body) targets todo

/-- Does the first piece of work. -/
def step : Config → Config
  | working p (task :: todo) =>
    match task.move p with
    | .opens p tasks => working p (tasks ++ todo)
    | .boxes p body targets => boxing p (.blank targets.length) body targets todo
    | .stops e p => stopped e p
    | .idles => working p (task :: todo)
  | boxing p box body targets todo => stepBox p box targets todo body
  | c => c

/-- What a piece of work comes to. -/
def Task.run : Task → Progress → Outcome Progress
  | .node n, p => runNode n p
  | .branches bit ifParts elseParts target, p =>
    (runBranches p.scope bit ifParts elseParts target p.circuits).map (Progress.mk p.scope)
  | .part origin targets x, p =>
    (runPart makeBox p.scope targets origin.condition x p.circuits).map (Progress.mk p.scope)

/-- What the rest of a box comes to. -/
def finishBox (p : Progress) (box : Circuit) (body : List Part) (targets : List Qubit) :
    Outcome Progress :=
  match runEach runBoxPart body ⟨box, []⟩ with
  | .done inner => .done ⟨p.scope, p.circuits.closeBox inner.main targets⟩
  | .failed e inner =>
    .failed e ⟨p.scope, { p.circuits with boxes := p.circuits.boxes ++ [inner.main] }⟩
  | .endless => .endless

def Move.run : Move → Outcome Progress
  | .opens p tasks => runEach Task.run tasks p
  | .boxes p body targets => finishBox p (.blank targets.length) body targets
  | .stops e p => .failed e p
  | .idles => .endless

/-- What is left to do comes to this. -/
def Config.finish : Config → Outcome Progress
  | working p todo => runEach Task.run todo p
  | boxing p box body targets todo =>
    (finishBox p box body targets).andThen (runEach Task.run todo)
  | stopped e p => .failed e p

section Boxes

/-- No name stands for a gate on qubits and for an operation on bits. -/
theorem lookup_bitRules_eq_none {name : String} {rule : QubitRule}
    (h : qubitRules.lookup name = some rule) : bitRules.lookup name = none := by
  have hdisjoint : ∀ entry ∈ bitRules, qubitRules.lookup entry.1 = none := by decide
  rw [List.lookup_eq_none_iff]
  intro entry hentry
  by_contra hname
  have hname : name = entry.1 := by simpa using hname
  rw [hname, hdisjoint entry hentry] at h
  simp at h

theorem findRule_ok {α β : Type} {rules : List (String × α)} {name : String} {targets : List β}
    {unknown : LowerError} {rule : Option α} (h : findRule rules name targets unknown = .ok rule) :
    rule = none ∨ rule = rules.lookup name := by
  unfold findRule at h
  split at h
  · exact .inl (by simpa using h.symm)
  · split at h
    · rename_i found hfound
      exact .inr (by rw [hfound]; simpa using h.symm)
    · simp at h

theorem lookup_of_qubitRule {scope : Scope} {targets : Targets} {call : GateCall} {p : Prepared}
    {rule : QubitRule} (h : prepare scope targets call = .ok p) (hrule : p.qubitRule = some rule) :
    qubitRules.lookup call.name = some rule := by
  obtain ⟨-, hqubit, -⟩ := prepare_ok h
  rcases findRule_ok hqubit with hnone | hfound
  · rw [hnone] at hrule
    simp at hrule
  · rw [← hfound, hrule]

theorem bitRule_eq_none_of_qubitRule {scope : Scope} {targets : Targets} {call : GateCall}
    {p : Prepared} {rule : QubitRule} (h : prepare scope targets call = .ok p)
    (hrule : p.qubitRule = some rule) : p.bitRule = none := by
  have hlookup := lookup_of_qubitRule h hrule
  obtain ⟨-, -, hbit⟩ := prepare_ok h
  rcases findRule_ok hbit with hnone | hfound
  · exact hnone
  · exact hfound.trans (lookup_bitRules_eq_none hlookup)

/-- Without a rule for boxes it does not matter how boxes are made. -/
theorem Prepared.run_eq_noBox {p : Prepared} (h : p.qubitRule ≠ some .box) (box : BoxMaker)
    (targets : Targets) (condition : Option Condition) (cs : Circuits) :
    p.run box targets condition cs = p.run noBox targets condition cs := by
  obtain ⟨args, qubitRule, bitRule⟩ := p
  cases qubitRule with
  | none => rfl
  | some rule =>
    cases rule with
    | box => exact absurd rfl h
    | _ => rfl

theorem map_makeBox (p : Progress) (body : List Part) (targets : List Qubit) :
    (makeBox body targets p.circuits).map (Progress.mk p.scope) =
      finishBox p (.blank targets.length) body targets := by
  have hbody : runBody body targets.length = runEach runBoxPart body ⟨.blank targets.length, []⟩ :=
    runPipelineWith_eq_runEach noBox [] ⟨[.default 0], []⟩ none body _
  unfold makeBox finishBox
  rw [hbody]
  cases runEach runBoxPart body ⟨.blank targets.length, []⟩ <;> rfl

theorem runCall_box {p : Progress} {targets : Targets} {condition : Option Condition}
    {call : GateCall} {prepared : Prepared} (h : prepare p.scope targets call = .ok prepared)
    (hrule : prepared.qubitRule = some .box) :
    runCall makeBox p.scope targets condition call p.circuits =
      match boxBody prepared.args condition with
      | .error e => failed e (p.onMain (·.ensureQubits targets.qubits)).circuits
      | .ok body =>
        makeBox body targets.qubits (p.onMain (·.ensureQubits targets.qubits)).circuits := by
  have hbit := bitRule_eq_none_of_qubitRule h hrule
  simp only [runCall, h, Prepared.run, hrule, hbit, QubitRule.run]
  cases boxBody prepared.args condition <;> simp [Progress.onMain]

/-- What a part of a box enters. -/
theorem runBoxPart_keeps {allowed : Call → Prop} (hp : PermitsQuantum allowed none) (part : Part)
    (cs : Circuits) : (runBoxPart part cs).Ensures (cs.Keeps allowed) := by
  cases part with
  | gate call =>
    rw [runBoxPart, runPart_gate]
    exact runCall_keeps (fun _ => hp) (fun h => absurd rfl h) (.none _)
  | named r =>
    rw [runBoxPart, runPart_unresolved (by simp [Scope.find?])]
    exact ensures_failed.mpr (.refl cs)

theorem runBoxPart_boxes {part : Part} {cs cs' : Circuits} (h : runBoxPart part cs = done cs') :
    cs'.boxes = cs.boxes := by
  have hpermits : PermitsQuantum (fun _ => True) none :=
    ⟨fun _ => trivial, fun _ => trivial, fun _ _ => trivial⟩
  have hkeeps := runBoxPart_keeps hpermits part cs
  rw [h, ensures_done] at hkeeps
  exact hkeeps.boxes

end Boxes

section Moves

theorem run_ofOutcome (o : Outcome Progress) : (Move.ofOutcome o).run = o := by cases o <;> rfl

theorem runEach_parts (p : Progress) (origin : Origin) (targets : Targets) (parts : List Part) :
    runEach Task.run (parts.map (.part origin targets)) p =
      (runEach (runPart makeBox p.scope targets origin.condition) parts p.circuits).map
        (Progress.mk p.scope) := by
  have htask : ∀ part cs, (runPart makeBox p.scope targets origin.condition part cs).map
      (Progress.mk p.scope) = (Task.part origin targets part).run ⟨p.scope, cs⟩ := fun _ _ => rfl
  rw [runEach_map]
  exact (map_runEach (fun part _ => htask part) p.circuits).symm

theorem run_moveCall (p : Progress) (origin : Origin) (targets : Targets) (call : GateCall) :
    (moveCall p origin targets call).run =
      (runCall makeBox p.scope targets origin.condition call p.circuits).map
        (Progress.mk p.scope) := by
  unfold moveCall
  cases hp : prepare p.scope targets call with
  | error e => simp only [runCall, hp]; rfl
  | ok prepared =>
    dsimp only
    split
    · rename_i hrule
      rw [runCall_box hp hrule]
      cases boxBody prepared.args origin.condition with
      | error e => rfl
      | ok body => exact (map_makeBox (p.onMain (·.ensureQubits targets.qubits)) body _).symm
    · rename_i hrule
      rw [run_ofOutcome]
      simp only [runCall, hp, Prepared.run_eq_noBox hrule makeBox]

theorem moveNamed_pipeline {p : Progress} {r : Reference} {parts : List Part}
    (h : p.scope.find? r.name = some (.pipeline parts)) (origin : Origin) (targets : Targets) :
    moveNamed p origin targets r = .opens p ((oriented r parts).map (.part origin targets)) := by
  simp only [moveNamed, h]

theorem moveNamed_unresolved {p : Progress} {r : Reference}
    (h : ∀ parts, p.scope.find? r.name ≠ some (.pipeline parts)) (origin : Origin)
    (targets : Targets) :
    moveNamed p origin targets r = .stops (referenceError p.scope r) p := by
  unfold moveNamed
  split
  · rename_i parts hparts
    exact absurd hparts (h parts)
  · rfl

theorem runBranches_qubit (scope : Scope) (bit : Bit) (ifParts : List Part)
    (elseParts : Option (List Part)) (q : Qubit) (cs : Circuits) :
    runBranches scope bit ifParts elseParts (.qubit q) cs =
      (runEach (runPart makeBox scope ⟨[q], []⟩ (some ⟨bit, true⟩)) ifParts
        { cs with main := cs.main.ensureQubit q }).andThen
      (runEach (runPart makeBox scope ⟨[q], []⟩ (some ⟨bit, false⟩)) (elseParts.getD [])) := by
  unfold runBranches runPipeline
  simp only [runPipelineWith_eq_runEach]
  cases elseParts <;> rfl

theorem run_moveBranches (p : Progress) (bit : Bit) (ifParts : List Part)
    (elseParts : Option (List Part)) (target : Entity) :
    (moveBranches p bit ifParts elseParts target).run =
      (runBranches p.scope bit ifParts elseParts target p.circuits).map (Progress.mk p.scope) := by
  cases target with
  | qubit q =>
    have helse : ∀ cs, (runEach (runPart makeBox p.scope ⟨[q], []⟩ (some ⟨bit, false⟩))
        (elseParts.getD []) cs).map (Progress.mk p.scope) =
          runEach Task.run ((elseParts.getD []).map (.part (.elseBranch bit) ⟨[q], []⟩))
            ⟨p.scope, cs⟩ := fun cs =>
      (runEach_parts ⟨p.scope, cs⟩ (.elseBranch bit) ⟨[q], []⟩ (elseParts.getD [])).symm
    rw [runBranches_qubit, map_andThen helse, moveBranches, Move.run, runEach_append, runEach_parts]
    rfl
  | _ => rfl

theorem run_moveAction (p : Progress) (target : Target) (count : Option Int)
    (instruction : Instruction) :
    (moveAction p target count instruction).run =
      (runAction p.scope target count instruction p.circuits).map (Progress.mk p.scope) := by
  unfold moveAction runAction
  cases resolveTarget p.scope p.circuits.main target with
  | error e => rfl
  | ok entities =>
    cases resolveInstruction p.scope instruction with
    | error e => rfl
    | ok parts =>
      have hround : runPipeline p.scope (.ofEntities entities) none parts =
          runEach (runPart makeBox p.scope (.ofEntities entities) none) parts := by
        funext cs
        exact runPipelineWith_eq_runEach makeBox p.scope _ none parts cs
      dsimp only
      rw [hround, runTimes_eq_runEach, Move.run, runEach_parts]
      rfl

theorem run_moveConditional (p : Progress) (target : Target) (name : String) (ifParts : List Part)
    (elseParts : Option (List Part)) :
    (moveConditional p target name ifParts elseParts).run =
      (runConditional p.scope target name ifParts elseParts p.circuits).map
        (Progress.mk p.scope) := by
  unfold moveConditional runConditional
  cases resolveCondition p.scope name with
  | error e => rfl
  | ok bit =>
    dsimp only [Progress.onMain]
    cases resolveTarget p.scope (p.circuits.main.ensureBit bit) target with
    | error e => rfl
    | ok entities =>
      have htask : ∀ target cs, (runBranches p.scope bit ifParts elseParts target cs).map
          (Progress.mk p.scope) =
            (Task.branches bit ifParts elseParts target).run ⟨p.scope, cs⟩ := fun _ _ => rfl
      dsimp only
      rw [Move.run, runEach_map, map_runEach fun target _ => htask target]

/-- What a piece of work turns into comes to the same as the piece of work. -/
theorem run_move (p : Progress) (task : Task) : (task.move p).run = task.run p := by
  cases task with
  | node node =>
    cases node with
    | action target count instruction => exact run_moveAction p target count instruction
    | conditional target name ifParts elseParts =>
      exact run_moveConditional p target name ifParts elseParts
    | _ => rfl
  | branches bit ifParts elseParts target => exact run_moveBranches p bit ifParts elseParts target
  | part origin targets part =>
    cases part using partCases p.scope with
    | gate call => rw [Task.move, run_moveCall, Task.run, runPart_gate]
    | pipeline r parts hr =>
      rw [Task.move, moveNamed_pipeline hr, Move.run, runEach_parts, Task.run,
        runPart_named Uniform.makeBox hr]
    | unresolved r hr =>
      rw [Task.move, moveNamed_unresolved hr, Move.run, Task.run, runPart_unresolved hr, map_failed]

theorem ofOutcome_opens {o : Outcome Progress} {p : Progress} {tasks : List Task}
    (h : Move.ofOutcome o = .opens p tasks) : o = done p ∧ tasks = [] := by
  cases o with
  | done p' =>
    rw [Move.ofOutcome, Move.opens.injEq] at h
    exact ⟨by rw [h.1], h.2.symm⟩
  | failed e p' => simp [Move.ofOutcome] at h
  | endless => simp [Move.ofOutcome] at h

theorem moveCall_opens {p p' : Progress} {origin : Origin} {targets : Targets} {call : GateCall}
    {tasks : List Task} (h : moveCall p origin targets call = .opens p' tasks) : tasks = [] := by
  unfold moveCall at h
  split at h
  · simp at h
  · split at h
    · dsimp only at h
      split at h <;> simp at h
    · exact (ofOutcome_opens h).2

/-- A gate call begins a box if that is its rule and its argument is a pipeline. -/
theorem moveCall_boxes {p p' : Progress} {origin : Origin} {targets : Targets} {call : GateCall}
    {body : List Part} {qubits : List Qubit}
    (h : moveCall p origin targets call = .boxes p' body qubits) :
    qubits = targets.qubits ∧ ∃ prepared, prepare p.scope targets call = .ok prepared ∧
      prepared.qubitRule = some .box ∧ boxBody prepared.args origin.condition = .ok body := by
  unfold moveCall at h
  split at h
  · simp at h
  · rename_i prepared hprepared
    split at h
    · rename_i hrule
      dsimp only at h
      split at h
      · simp at h
      · rename_i hbody
        cases h
        exact ⟨rfl, prepared, hprepared, hrule, hbody⟩
    · cases hrun : (prepared.run noBox targets origin.condition p.circuits).map
        (Progress.mk p.scope) <;> simp [hrun, Move.ofOutcome] at h

theorem moveBranches_opens {p p' : Progress} {bit : Bit} {ifParts : List Part}
    {elseParts : Option (List Part)} {target : Entity} {tasks : List Task}
    (h : moveBranches p bit ifParts elseParts target = .opens p' tasks) :
    ∃ q, target = .qubit q ∧ p' = p.onMain (·.ensureQubit q) ∧
      tasks = ifParts.map (.part (.ifBranch bit) ⟨[q], []⟩) ++
        (elseParts.getD []).map (.part (.elseBranch bit) ⟨[q], []⟩) := by
  cases target with
  | qubit q =>
    rw [moveBranches, Move.opens.injEq] at h
    exact ⟨q, rfl, h.1.symm, h.2.symm⟩
  | _ => simp [moveBranches] at h

theorem moveAction_opens {p p' : Progress} {target : Target} {count : Option Int}
    {instruction : Instruction} {tasks : List Task}
    (h : moveAction p target count instruction = .opens p' tasks) :
    p' = p ∧ ∃ targets parts, tasks = List.map (.part .unconditional targets) parts := by
  unfold moveAction at h
  split at h
  · simp at h
  · split at h
    · simp at h
    · rw [Move.opens.injEq] at h
      exact ⟨h.1.symm, _, _, h.2.symm⟩

theorem resolveCondition_ok {scope : Scope} {name : String} {bit : Bit}
    (h : resolveCondition scope name = .ok bit) : scope.find? name = some (.bit bit) := by
  unfold resolveCondition at h
  split at h
  · simp at h
  · rename_i b hb
    rw [hb, Except.ok.inj h]
  · simp at h

theorem moveConditional_opens {p p' : Progress} {target : Target} {name : String}
    {ifParts : List Part} {elseParts : Option (List Part)} {tasks : List Task}
    (h : moveConditional p target name ifParts elseParts = .opens p' tasks) :
    ∃ bit entities, p.scope.find? name = some (.bit bit) ∧ p' = p.onMain (·.ensureBit bit) ∧
      tasks = List.map (.branches bit ifParts elseParts) entities := by
  unfold moveConditional at h
  split at h
  · simp at h
  · rename_i bit hbit
    dsimp only at h
    split at h
    · simp at h
    · rename_i entities _
      rw [Move.opens.injEq] at h
      exact ⟨bit, entities, resolveCondition_ok hbit, h.1.symm, h.2.symm⟩

theorem finish_stepBox (p : Progress) (box : Circuit) (targets : List Qubit) (todo : List Task)
    (body : List Part) :
    (stepBox p box targets todo body).finish = (boxing p box body targets todo).finish := by
  cases body with
  | nil => rfl
  | cons part body =>
    simp only [stepBox, Config.finish, finishBox, runEach_cons]
    cases hpart : runBoxPart part ⟨box, []⟩ with
    | done inner =>
      -- a box holds no box, so the circuits inside it are the box alone
      obtain ⟨main, boxes⟩ := inner
      cases runBoxPart_boxes hpart
      rfl
    | failed e inner => rfl
    | endless => simp only [runEach_cons, hpart]

/-- A step does not change what the whole comes to. -/
theorem finish_step (c : Config) : (step c).finish = c.finish := by
  cases c with
  | working p todo =>
    cases todo with
    | nil => rfl
    | cons task todo =>
      rw [Config.finish, runEach_cons, ← run_move, step]
      cases hmove : task.move p with
      | opens p' tasks => exact runEach_append Task.run tasks todo p'
      | boxes p' body targets => rfl
      | stops e p' => rfl
      | idles =>
        have hrun := run_move p task
        rw [hmove] at hrun
        dsimp only
        rw [Config.finish, runEach_cons, ← hrun]
  | boxing p box body targets todo => exact finish_stepBox p box targets todo body
  | stopped e p => rfl

theorem finish_iterate (n : Nat) (c : Config) : (step^[n] c).finish = c.finish := by
  induction n generalizing c with
  | zero => rfl
  | succ n ih => rw [Function.iterate_succ_apply, ih, finish_step]

theorem finish_start (nodes : List Node) : (start nodes).finish = runNodes nodes .initial :=
  runEach_map Task.run Task.node nodes Progress.initial

end Moves

end GateScript.Lower
