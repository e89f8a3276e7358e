import GateScript.Proofs.Lower.Growth
import GateScript.Proofs.Lower.Stopping

/-!
Conditions stay with conditional actions.

Whatever a conditional action enters, save for units that it adds, is under the condition of the
branch that it comes from. Nothing else is under a condition. Both are told from the work that is
left: the branch of a part is kept when a named pipeline is opened.
-/
namespace GateScript.Lower

open Program Outcome Circuit Config

/-- The branch that is run if the bit has the value. -/
def Origin.branch (bit : Bit) : Bool → Origin
  | true => .ifBranch bit
  | false => .elseBranch bit

@[simp] theorem Origin.condition_branch (bit : Bit) (value : Bool) :
    (Origin.branch bit value).condition = some ⟨bit, value⟩ := by
  cases value <;> rfl

/-- The pipeline of a branch. -/
def branchParts (ifParts : List Part) (elseParts : Option (List Part)) : Bool → List Part
  | true => ifParts
  | false => elseParts.getD []

section Moves

theorem boxBody_condition {args : List Value} {condition : Option Condition} {body : List Part}
    (h : boxBody args condition = .ok body) : condition = none := by
  unfold boxBody at h
  split at h
  · simp at h
  · split at h
    · simp at h
    · rename_i hsome
      simpa using hsome
  · simp at h

theorem moveCall_scope {p p' : Progress} {origin : Origin} {targets : Targets} {call : GateCall}
    (h : (moveCall p origin targets call).progress? = some p') : p'.scope = p.scope := by
  unfold moveCall at h
  split at h
  · cases h
    rfl
  · rename_i prepared _
    split at h
    · dsimp only at h
      split at h <;> (cases h; rfl)
    · rw [progress?_ofOutcome] at h
      have hscope : ((prepared.run noBox targets origin.condition p.circuits).map
          (Progress.mk p.scope)).Ensures fun p' => p'.scope = p.scope := by
        rw [ensures_map]
        exact fun _ _ => rfl
      exact hscope p' h

end Moves

section Conditional

variable {scope : Scope} {name : String} {ifParts : List Part} {elseParts : Option (List Part)}

/-- What can be left to do of a conditional action. A part stands for one of its branch. -/
inductive Task.OfConditional (scope : Scope) (name : String) (ifParts : List Part)
    (elseParts : Option (List Part)) : Task → Prop
  | node (target : Target) :
    OfConditional scope name ifParts elseParts (.node (.conditional target name ifParts elseParts))
  | branches {bit : Bit} (hbit : scope.find? name = some (.bit bit)) (target : Entity) :
    OfConditional scope name ifParts elseParts (.branches bit ifParts elseParts target)
  | part {bit : Bit} (hbit : scope.find? name = some (.bit bit)) (value : Bool) (q : Qubit)
      {part : Part} (hpart : PartOf scope (branchParts ifParts elseParts value) part) :
    OfConditional scope name ifParts elseParts (.part (.branch bit value) ⟨[q], []⟩ part)

/-- The calls that the next step may enter for a conditional action: units may be added, and all
else is under the condition on the bit that the name stands for, with the value for the branch
that the part in hand comes from. -/
def Config.BranchCall (scope : Scope) (name : String) (ifParts : List Part)
    (elseParts : Option (List Part)) (c : Config) (call : Call) : Prop :=
  call.IsAllocation ∨ ∃ bit value q part, scope.find? name = some (.bit bit) ∧
    call.condition = some ⟨bit, value⟩ ∧
    c.todo.head? = some (.part (.branch bit value) ⟨[q], []⟩ part) ∧
    PartOf scope (branchParts ifParts elseParts value) part

/-- The calls that a conditional action may enter. -/
def ConditionedCall (scope : Scope) (name : String) (call : Call) : Prop :=
  call.IsAllocation ∨ ∃ bit value, scope.find? name = some (.bit bit) ∧
    call.condition = some ⟨bit, value⟩

theorem Config.BranchCall.conditioned {c : Config} {call : Call}
    (h : c.BranchCall scope name ifParts elseParts call) : ConditionedCall scope name call := by
  rcases h with h | ⟨bit, value, -, -, hbit, hcondition, -, -⟩
  · exact .inl h
  · exact .inr ⟨bit, value, hbit, hcondition⟩

/-- A move that begins no box, keeps the scope and opens only work of some kind. -/
def Move.Within (scope : Scope) (kind : Task → Prop) : Move → Prop
  | .opens p tasks => p.scope = scope ∧ ∀ task ∈ tasks, kind task
  | .boxes _ _ _ => False
  | .stops _ p => p.scope = scope
  | .idles => True

theorem moveCall_within (p : Progress) (kind : Task → Prop) {origin : Origin}
    (h : origin.condition ≠ none) (targets : Targets) (call : GateCall) :
    (moveCall p origin targets call).Within p.scope kind := by
  cases hmove : moveCall p origin targets call with
  | opens p' tasks =>
    refine ⟨moveCall_scope (by rw [hmove]; rfl), ?_⟩
    rw [moveCall_opens hmove]
    simp
  | boxes p' body qubits =>
    -- a box is begun only outside of a branch
    obtain ⟨-, prepared, -, -, hbody⟩ := moveCall_boxes hmove
    exact h (boxBody_condition hbody)
  | stops e p' => exact moveCall_scope (by rw [hmove]; rfl)
  | idles => trivial

theorem moveConditional_within (p : Progress) (target : Target) :
    (moveConditional p target name ifParts elseParts).Within p.scope
      (Task.OfConditional p.scope name ifParts elseParts) := by
  unfold moveConditional
  split
  · exact rfl
  · rename_i bit hbit
    dsimp only
    split
    · exact rfl
    · refine ⟨rfl, fun task htask => ?_⟩
      obtain ⟨entity, -, rfl⟩ := List.mem_map.mp htask
      exact .branches (resolveCondition_ok hbit) entity

theorem moveBranches_within {p : Progress} {bit : Bit} (hbit : p.scope.find? name = some (.bit bit))
    (target : Entity) :
    (moveBranches p bit ifParts elseParts target).Within p.scope
      (Task.OfConditional p.scope name ifParts elseParts) := by
  cases target with
  | qubit q =>
    refine ⟨rfl, fun task htask => ?_⟩
    rw [List.mem_append, List.mem_map, List.mem_map] at htask
    rcases htask with ⟨part, hpart, rfl⟩ | ⟨part, hpart, rfl⟩
    · exact .part hbit true q (.direct hpart)
    · exact .part hbit false q (.direct hpart)
  | _ => exact rfl

/-- What a conditional action opens belongs to it, each part to the branch that it comes from. -/
theorem Task.OfConditional.move_within {p : Progress} {task : Task}
    (h : task.OfConditional p.scope name ifParts elseParts) :
    (task.move p).Within p.scope (Task.OfConditional p.scope name ifParts elseParts) := by
  cases h with
  | node target => exact moveConditional_within p target
  | branches hbit target => exact moveBranches_within hbit target
  | @part bit hbit value q part hpart =>
    cases part using partCases p.scope with
    | gate call => exact moveCall_within p _ (by simp) ⟨[q], []⟩ call
    | pipeline r parts hr =>
      rw [Task.move, moveNamed_pipeline hr]
      refine ⟨rfl, fun task htask => ?_⟩
      obtain ⟨x, hx, rfl⟩ := List.mem_map.mp htask
      exact .part hbit value q (.inner hpart hr (mem_oriented.mp hx))
    | unresolved r hr =>
      rw [Task.move, moveNamed_unresolved hr]
      exact rfl

theorem Task.OfConditional.branchCall {p : Progress} {task : Task} {todo : List Task} {call : Call}
    (h : task.OfConditional scope name ifParts elseParts) (hcall : task.Allows call) :
    (working p (task :: todo)).BranchCall scope name ifParts elseParts call := by
  cases h with
  | node target => exact .inl hcall
  | branches hbit target => exact .inl hcall
  | part hbit value q hpart =>
    rcases hcall with hadds | ⟨-, hcondition⟩ | ⟨hbits, -⟩
    · exact .inl hadds
    · rw [Origin.condition_branch] at hcondition
      exact .inr ⟨_, value, q, _, hbit, hcondition, rfl, hpart⟩
    · exact absurd rfl hbits

/-- A conditional action is under way: no box has been begun since. -/
structure Config.AtConditional (p : Progress) (name : String) (ifParts : List Part)
    (elseParts : Option (List Part)) (c : Config) : Prop where
  scope : c.progress.scope = p.scope
  circuits : c.progress.circuits.boxes = p.circuits.boxes
  boxes : c.boxes = p.circuits.boxes
  tasks : ∀ task ∈ c.todo, task.OfConditional p.scope name ifParts elseParts

variable {p : Progress} {c : Config}

theorem Config.AtConditional.not_boxing {p' : Progress} {box : Circuit} {body : List Part}
    {targets : List Qubit} {todo : List Task} :
    ¬(boxing p' box body targets todo).AtConditional p name ifParts elseParts := by
  intro h
  have hboxes : p'.circuits.boxes ++ [box] = p'.circuits.boxes := h.boxes.trans h.circuits.symm
  simp at hboxes

theorem step_atConditional (h : c.AtConditional p name ifParts elseParts) (hready : c.Ready) :
    (step c).AtConditional p name ifParts elseParts := by
  cases c with
  | working p' todo =>
    cases todo with
    | nil => exact h
    | cons task todo =>
      have hscope : p'.scope = p.scope := h.scope
      obtain ⟨htask, htodo⟩ := List.forall_mem_cons.mp h.tasks
      have hwithin := Task.OfConditional.move_within (hscope ▸ htask)
      have htaskReady : task.Ready p'.circuits.main := hready task List.mem_cons_self
      rw [hscope] at hwithin
      rw [step]
      cases hmove : task.move p' with
      | opens p'' tasks =>
        have hkeeps := Task.move_keeps htaskReady (by rw [hmove]; rfl)
        have hboxes := hkeeps.boxes.trans h.circuits
        rw [hmove] at hwithin
        exact ⟨hwithin.1, hboxes, hboxes, List.forall_mem_append.mpr ⟨hwithin.2, htodo⟩⟩
      | boxes p'' body qubits =>
        -- a box under a condition is refused before it is begun
        rw [hmove] at hwithin
        exact hwithin.elim
      | stops e p'' =>
        have hkeeps := Task.move_keeps htaskReady (by rw [hmove]; rfl)
        have hboxes := hkeeps.boxes.trans h.circuits
        rw [hmove] at hwithin
        exact ⟨hwithin, hboxes, hboxes, by simp [Config.todo]⟩
      | idles => exact h
  | boxing p' box body targets todo => exact (AtConditional.not_boxing h).elim
  | stopped e p' => exact h

theorem Config.AtConditional.branchCall (h : c.AtConditional p name ifParts elseParts)
    {call : Call} (hcall : c.Allows call) : c.BranchCall p.scope name ifParts elseParts call := by
  cases c with
  | working p' todo =>
    cases todo with
    | nil => exact hcall.elim
    | cons task todo => exact (h.tasks task List.mem_cons_self).branchCall hcall
  | boxing p' box body targets todo => exact (AtConditional.not_boxing h).elim
  | stopped e p' => exact hcall.elim

end Conditional

section Conditional

variable (p : Progress) (target : Target) (name : String) (ifParts : List Part)
  (elseParts : Option (List Part))

/-- A conditional action about to be run. -/
def Config.conditional : Config := working p [.node (.conditional target name ifParts elseParts)]

theorem ready_node (node : Node) : (working p [.node node]).Ready := by
  intro task htask
  rw [List.mem_singleton.mp htask]
  trivial

theorem atConditional_iterate (n : Nat) :
    (step^[n] (conditional p target name ifParts elseParts)).AtConditional p name ifParts
      elseParts := by
  induction n with
  | zero =>
    refine ⟨rfl, rfl, rfl, fun task htask => ?_⟩
    rw [List.mem_singleton.mp htask]
    exact .node target
  | succ n ih =>
    rw [Function.iterate_succ_apply']
    exact step_atConditional ih (ready_iterate (ready_node p _) n)

/-- The calls of one step of a conditional action. -/
theorem conditional_step_records (n : Nat) :
    Records ((step^[n] (conditional p target name ifParts elseParts)).BranchCall p.scope name
        ifParts elseParts)
      (step^[n] (conditional p target name ifParts elseParts)).main
      (step^[n + 1] (conditional p target name ifParts elseParts)).main := by
  have hgrows := grows_iterate (ready_node p (.conditional target name ifParts elseParts)) n
  exact hgrows.main.mono fun call =>
    (atConditional_iterate p target name ifParts elseParts n).branchCall

/-- The next step enters the call into the main circuit. -/
def Config.Enters (c : Config) (call : Call) : Prop :=
  ∃ added, (step c).main.calls = c.main.calls ++ added ∧ call ∈ added

/-- Whatever has been entered was entered by one of the steps, for the branch in hand there. -/
theorem conditional_entered (n : Nat) :
    ∃ new, (step^[n] (conditional p target name ifParts elseParts)).main.calls =
        p.circuits.main.calls ++ new ∧
      ∀ call ∈ new, ∃ m < n, (step^[m] (conditional p target name ifParts elseParts)).Enters call ∧
        (step^[m] (conditional p target name ifParts elseParts)).BranchCall p.scope name ifParts
          elseParts call := by
  induction n with
  | zero => exact ⟨[], by simp [conditional, Config.main, Config.progress], by simp⟩
  | succ n ih =>
    obtain ⟨old, hold, hentered⟩ := ih
    have hstep := conditional_step_records p target name ifParts elseParts n
    obtain ⟨added, hadded, hbranch⟩ := hstep.exists_calls
    refine ⟨old ++ added, by rw [hadded, hold, List.append_assoc], fun call hcall => ?_⟩
    rcases List.mem_append.mp hcall with hcall | hcall
    · obtain ⟨m, hm, hcall⟩ := hentered call hcall
      exact ⟨m, Nat.lt_succ_of_lt hm, hcall⟩
    · rw [Function.iterate_succ_apply'] at hadded
      exact ⟨n, Nat.lt_succ_self n, ⟨added, hadded, hcall⟩, hbranch call hcall⟩

/-- The calls of a conditional action up to some step. -/
theorem conditional_records (n : Nat) :
    Records (ConditionedCall p.scope name) p.circuits.main
      (step^[n] (conditional p target name ifParts elseParts)).main := by
  induction n with
  | zero => exact .refl
  | succ n ih =>
    have hstep := conditional_step_records p target name ifParts elseParts n
    exact ih.trans (hstep.mono fun _ hcall => hcall.conditioned)

end Conditional

section Unconditional

/-- A call without a condition. -/
def Unconditional (call : Call) : Prop := call.condition = none

theorem unconditional_of_isAllocation {call : Call} (h : call.IsAllocation) :
    Unconditional call := by
  cases h <;> rfl

theorem PlainCall.unconditional {call : Call} (h : PlainCall call) : Unconditional call := by
  rcases h with h | ⟨-, h⟩
  · exact unconditional_of_isAllocation h
  · exact h

/-- What can be left to do of an action. -/
def Task.OfAction : Task → Prop
  | .node (.action _ _ _) => True
  | .part .unconditional _ _ => True
  | _ => False

theorem Task.OfAction.unconditional {task : Task} (h : task.OfAction) {call : Call}
    (hcall : task.Allows call) : Unconditional call := by
  cases task with
  | node node => exact unconditional_of_isAllocation hcall
  | branches bit ifParts elseParts target => exact h.elim
  | part origin targets part =>
    cases origin with
    | unconditional =>
      rcases hcall with hcall | ⟨-, hnone⟩ | ⟨-, -, hnone⟩
      · exact unconditional_of_isAllocation hcall
      · exact hnone
      · exact hnone
    | ifBranch bit => exact h.elim
    | elseBranch bit => exact h.elim

theorem Task.OfAction.move_opens {task : Task} (h : task.OfAction) {p p' : Progress}
    {tasks : List Task} (hmove : task.move p = .opens p' tasks) :
    ∀ opened ∈ tasks, opened.OfAction := by
  intro opened hopened
  cases task with
  | node node =>
    cases node with
    | action target count instruction =>
      obtain ⟨-, targets, parts, rfl⟩ := moveAction_opens hmove
      obtain ⟨part, -, rfl⟩ := List.mem_map.mp hopened
      trivial
    | _ => exact h.elim
  | branches bit ifParts elseParts target => exact h.elim
  | part origin targets part =>
    cases origin with
    | unconditional =>
      cases part using partCases p.scope with
      | gate call =>
        rw [moveCall_opens hmove] at hopened
        simp at hopened
      | pipeline r parts hr =>
        rw [Task.move, moveNamed_pipeline hr, Move.opens.injEq] at hmove
        obtain ⟨-, rfl⟩ := hmove
        obtain ⟨part, -, rfl⟩ := List.mem_map.mp hopened
        trivial
      | unresolved r hr =>
        rw [Task.move, moveNamed_unresolved hr] at hmove
        cases hmove
    | ifBranch bit => exact h.elim
    | elseBranch bit => exact h.elim

theorem step_ofAction {c : Config} (h : ∀ task ∈ c.todo, task.OfAction) :
    ∀ task ∈ (step c).todo, task.OfAction := by
  cases c with
  | working p todo =>
    cases todo with
    | nil => exact h
    | cons task todo =>
      obtain ⟨htask, htodo⟩ := List.forall_mem_cons.mp h
      rw [step]
      cases hmove : task.move p with
      | opens p' tasks => exact List.forall_mem_append.mpr ⟨htask.move_opens hmove, htodo⟩
      | boxes p' body targets => exact htodo
      | stops e p' => simp [Config.todo]
      | idles => exact h
  | boxing p box body targets todo =>
    exact fun task htask => h task (stepBox_todo p box targets todo body htask)
  | stopped e p => exact h

theorem Config.unconditional_of_ofAction {c : Config} (h : ∀ task ∈ c.todo, task.OfAction)
    {call : Call} (hcall : c.Allows call) : Unconditional call := by
  cases c with
  | working p todo =>
    cases todo with
    | nil => exact hcall.elim
    | cons task todo => exact (h task List.mem_cons_self).unconditional hcall
  | boxing p box body targets todo =>
    rcases hcall with hplain | ⟨-, hcondition⟩
    · exact hplain.unconditional
    · exact hcondition
  | stopped e p => exact hcall.elim

variable (p : Progress) (target : Target) (count : Option Int) (instruction : Instruction)

/-- An action about to be run. -/
def Config.action : Config := working p [.node (.action target count instruction)]

theorem ofAction_iterate (n : Nat) :
    ∀ task ∈ (step^[n] (action p target count instruction)).todo, task.OfAction := by
  induction n with
  | zero =>
    intro task htask
    rw [List.mem_singleton.mp htask]
    trivial
  | succ n ih =>
    rw [Function.iterate_succ_apply']
    exact step_ofAction ih

/-- What an action enters into circuits is without a condition. -/
theorem action_grows (n : Nat) :
    (action p target count instruction).Grows Unconditional
      (step^[n] (action p target count instruction)) := by
  induction n with
  | zero => exact .refl _
  | succ n ih =>
    have hstep := grows_iterate (ready_node p (.action target count instruction)) n
    refine ih.trans (hstep.mono fun call hcall => ?_)
    exact unconditional_of_ofAction (ofAction_iterate p target count instruction n) hcall

theorem boxes_unconditional (nodes : List Node) (n : Nat) :
    ∀ box ∈ (step^[n] (start nodes)).boxes, ∀ call ∈ box.calls, Unconditional call := by
  induction n with
  | zero =>
    intro box hbox
    exact absurd hbox List.not_mem_nil
  | succ n ih =>
    intro box hbox call hcall
    rcases (grows_iterate (start_ready nodes) n).mem_boxes hbox with ⟨old, hold, h⟩ | ⟨width, h⟩
    all_goals
      obtain ⟨new, hnew, hplain⟩ := h.exists_calls
      rw [hnew, List.mem_append] at hcall
      rcases hcall with hcall | hcall
    · exact ih old hold call hcall
    · exact (hplain call hcall).unconditional
    · exact absurd hcall List.not_mem_nil
    · exact (hplain call hcall).unconditional

end Unconditional

/-- Nothing of a conditional action takes effect without its condition, wherever it is stopped and
however it ends. -/
structure ConditionalConfined (p : Progress) (target : Target) (name : String)
    (ifParts : List Part) (elseParts : Option (List Part)) : Prop where
  calls : ∀ n, Records (ConditionedCall p.scope name) p.circuits.main
    (step^[n] (conditional p target name ifParts elseParts)).main
  step_calls : ∀ n,
    Records ((step^[n] (conditional p target name ifParts elseParts)).BranchCall p.scope name
        ifParts elseParts)
      (step^[n] (conditional p target name ifParts elseParts)).main
      (step^[n + 1] (conditional p target name ifParts elseParts)).main
  boxes : ∀ n, (step^[n] (conditional p target name ifParts elseParts)).boxes = p.circuits.boxes
  outcome : (runNode (.conditional target name ifParts elseParts) p).Ensures fun p' =>
    p.circuits.Keeps (ConditionedCall p.scope name) p'.circuits
  /-- The result is where the steps end. Each of its new calls was entered by one of them. -/
  entered : (runNode (.conditional target name ifParts elseParts) p).Ensures fun p' =>
    ∃ n new, (step^[n] (conditional p target name ifParts elseParts)).Halted ∧
      (step^[n] (conditional p target name ifParts elseParts)).progress = p' ∧
      p'.circuits.main.calls = p.circuits.main.calls ++ new ∧
      ∀ call ∈ new, ∃ m < n, (step^[m] (conditional p target name ifParts elseParts)).Enters call ∧
        (step^[m] (conditional p target name ifParts elseParts)).BranchCall p.scope name ifParts
          elseParts call

/-- The circuits come from others, and from blank ones, by calls without a condition. -/
def GrowUnconditionally (cs cs' : List Circuit) : Prop :=
  ∃ widths, List.Forall₂ (Records Unconditional) (cs ++ List.map .blank widths) cs'

/-- An action makes no call under a condition, wherever it is stopped and however it ends. -/
structure ActionUnconditional (p : Progress) (target : Target) (count : Option Int)
    (instruction : Instruction) : Prop where
  calls : ∀ n, GrowUnconditionally (p.circuits.main :: p.circuits.boxes)
    (step^[n] (action p target count instruction)).circuits
  outcome : (runNode (.action target count instruction) p).Ensures fun p' =>
    GrowUnconditionally (p.circuits.main :: p.circuits.boxes)
      (p'.circuits.main :: p'.circuits.boxes)

theorem conditionalConfined (p : Progress) (target : Target) (name : String) (ifParts : List Part)
    (elseParts : Option (List Part)) : ConditionalConfined p target name ifParts elseParts := by
  have hboxes := fun n => (atConditional_iterate p target name ifParts elseParts n).boxes
  have hcalls := conditional_records p target name ifParts elseParts
  have hhalts := halts_of_lands (lands_node (.conditional target name ifParts elseParts) p [])
  refine ⟨hcalls, conditional_step_records p target name ifParts elseParts, hboxes,
    hhalts.mono ?_, hhalts.mono ?_⟩
  · rintro p' ⟨n, -, rfl, hn⟩
    exact ⟨hcalls n, hn.symm.trans (hboxes n)⟩
  · rintro p' ⟨n, hhalted, rfl, -⟩
    obtain ⟨new, hnew, hentered⟩ := conditional_entered p target name ifParts elseParts n
    exact ⟨n, new, hhalted, rfl, hnew, hentered⟩

theorem actionUnconditional (p : Progress) (target : Target) (count : Option Int)
    (instruction : Instruction) : ActionUnconditional p target count instruction := by
  have hcalls : ∀ n, GrowUnconditionally (p.circuits.main :: p.circuits.boxes)
      (step^[n] (action p target count instruction)).circuits := by
    intro n
    have hgrows := action_grows p target count instruction n
    obtain ⟨widths, hboxes⟩ := hgrows.boxes
    refine ⟨widths, .cons hgrows.main (hboxes.imp fun _ _ h => h.mono ?_)⟩
    exact fun _ => PlainCall.unconditional
  refine ⟨hcalls, ?_⟩
  refine (halts_of_lands (lands_node (.action target count instruction) p [])).mono ?_
  rintro p' ⟨n, -, rfl, hn⟩
  rw [← hn]
  exact hcalls n

/-- Conditions stay with the branches of conditional actions: a conditional action enters only
units and calls under the condition of its branch, and begins no box; actions and the bodies of
boxes make no call under a condition. -/
theorem conditions_confined :
    (∀ p target name ifParts elseParts,
      ConditionalConfined p target name ifParts elseParts) ∧
    (∀ p target count instruction, ActionUnconditional p target count instruction) ∧
    ∀ nodes,
      (∀ n, ∀ box ∈ (step^[n] (start nodes)).boxes, ∀ call ∈ box.calls, Unconditional call) ∧
      (lower nodes).Ensures fun cs => ∀ box ∈ cs.boxes, ∀ call ∈ box.calls, Unconditional call := by
  refine ⟨conditionalConfined, actionUnconditional, fun nodes => ⟨boxes_unconditional nodes, ?_⟩⟩
  refine (lower_halts nodes).mono ?_
  rintro cs ⟨n, -, hcircuits⟩
  rw [circuits, List.cons.injEq] at hcircuits
  rw [← hcircuits.2]
  exact boxes_unconditional nodes n

end GateScript.Lower
