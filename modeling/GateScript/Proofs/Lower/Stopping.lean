import GateScript.Proofs.Lower.Machine

/-! The machine stops where lowering ends, and goes on where lowering has no end. -/
namespace GateScript.Lower

open Program Outcome Config

section Stopping

/-- Steps lead from one configuration to another. -/
def Reaches (c c' : Config) : Prop := ∃ n, step^[n] c = c'

theorem Reaches.refl (c : Config) : Reaches c c := ⟨0, rfl⟩

theorem Reaches.trans {c₁ c₂ c₃ : Config} (h : Reaches c₁ c₂) (h' : Reaches c₂ c₃) :
    Reaches c₁ c₃ := by
  obtain ⟨n, rfl⟩ := h
  obtain ⟨m, rfl⟩ := h'
  exact ⟨m + n, Function.iterate_add_apply step m n c₁⟩

/-- Steps lead to where an outcome shows, with `todo` left to do. -/
def Lands (c : Config) (todo : List Task) : Outcome Progress → Prop
  | .done p => Reaches c (working p todo)
  | .failed e p => Reaches c (stopped e p)
  | .endless => True

theorem Reaches.lands {c c' : Config} {todo : List Task} {o : Outcome Progress} (h : Reaches c c')
    (h' : Lands c' todo o) : Lands c todo o := by
  cases o with
  | done p => exact h.trans h'
  | failed e p => exact h.trans h'
  | endless => trivial

theorem Lands.step {c : Config} {todo : List Task} {o : Outcome Progress}
    (h : Lands (step c) todo o) : Lands c todo o := Reaches.lands ⟨1, rfl⟩ h

theorem Lands.andThen {c : Config} {todo todo' : List Task} {o : Outcome Progress}
    {next : Progress → Outcome Progress} (h : Lands c todo' o)
    (hnext : ∀ p, Lands (working p todo') todo (next p)) : Lands c todo (o.andThen next) := by
  cases o with
  | done p => exact Reaches.lands h (hnext p)
  | failed e p => exact h
  | endless => trivial

theorem Lands.runEach {tasks : List Task}
    (h : ∀ task ∈ tasks, ∀ p todo, Lands (working p (task :: todo)) todo (task.run p))
    (p : Progress) (todo : List Task) :
    Lands (working p (tasks ++ todo)) todo (runEach Task.run tasks p) := by
  induction tasks generalizing p with
  | nil => exact .refl _
  | cons task tasks ih =>
    refine Lands.andThen (h task List.mem_cons_self p (tasks ++ todo)) fun p' => ?_
    exact ih (fun t ht => h t (List.mem_cons_of_mem task ht)) p'

theorem lands_finishBox (p : Progress) (box : Circuit) (body : List Part) (targets : List Qubit)
    (todo : List Task) :
    Lands (boxing p box body targets todo) todo (finishBox p box body targets) := by
  induction body generalizing box with
  | nil => exact .step (.refl _)
  | cons part body ih =>
    apply Lands.step
    simp only [Lower.step, stepBox, finishBox, runEach_cons]
    cases hpart : runBoxPart part ⟨box, []⟩ with
    | done inner =>
      obtain ⟨main, boxes⟩ := inner
      cases runBoxPart_boxes hpart
      exact ih main
    | failed e inner => exact .refl _
    | endless => trivial

/-- A piece of work lands where it should if the pieces that it opens do. -/
theorem lands_move {task : Task} {p : Progress} (todo : List Task)
    (h : ∀ p' tasks, task.move p = .opens p' tasks →
      Lands (working p' (tasks ++ todo)) todo (runEach Task.run tasks p')) :
    Lands (working p (task :: todo)) todo (task.run p) := by
  apply Lands.step
  rw [← run_move, Lower.step]
  cases hmove : task.move p with
  | opens p' tasks => exact h p' tasks hmove
  | boxes p' body targets => exact lands_finishBox p' _ body targets todo
  | stops e p' => exact .refl _
  | idles => trivial

theorem lands_call (p : Progress) (todo : List Task) (origin : Origin) (targets : Targets)
    (call : GateCall) :
    Lands (working p (.part origin targets (.gate call) :: todo)) todo
      ((runCall makeBox p.scope targets origin.condition call p.circuits).map
        (Progress.mk p.scope)) := by
  rw [← runPart_gate]
  refine lands_move todo fun p' tasks hmove => ?_
  rw [moveCall_opens hmove]
  exact .refl _

/-- Parts that each land where they should do so one after the other. -/
theorem lands_parts {scope : Scope} {origin : Origin} {targets : Targets}
    {run : Part → Circuits → Outcome Circuits}
    (h : ∀ part cs todo, Lands (working ⟨scope, cs⟩ (.part origin targets part :: todo)) todo
      ((run part cs).map (Progress.mk scope)))
    (parts : List Part) (cs : Circuits) (todo : List Task) :
    Lands (working ⟨scope, cs⟩ (parts.map (.part origin targets) ++ todo)) todo
      ((runEach run parts cs).map (Progress.mk scope)) := by
  induction parts generalizing cs with
  | nil => exact .refl _
  | cons part parts ih =>
    have hpart := h part cs (parts.map (.part origin targets) ++ todo)
    rw [runEach_cons]
    cases hrun : run part cs with
    | done cs' =>
      rw [hrun] at hpart
      exact Reaches.lands hpart (ih cs')
    | failed e cs' =>
      rw [hrun] at hpart
      exact hpart
    | endless => trivial

theorem lands_unresolved {p : Progress} {r : Reference}
    (h : ∀ parts, p.scope.find? r.name ≠ some (.pipeline parts)) (todo : List Task)
    (origin : Origin) (targets : Targets) (depth : Nat) :
    Lands (working p (.part origin targets (.named r) :: todo)) todo
      ((runPartWithin makeBox p.scope targets origin.condition depth (.named r) p.circuits).map
        (Progress.mk p.scope)) := by
  apply Lands.step
  rw [step, Task.move, moveNamed_unresolved h, runPartWithin_unresolved depth h]
  exact .refl _

/-- A part that is run to its end within some depth is run by finitely many steps. -/
theorem lands_partWithin (origin : Origin) (targets : Targets) (depth : Nat) (part : Part)
    (p : Progress) (todo : List Task) :
    Lands (working p (.part origin targets part :: todo)) todo
      ((runPartWithin makeBox p.scope targets origin.condition depth part p.circuits).map
        (Progress.mk p.scope)) := by
  induction depth generalizing part p todo with
  | zero =>
    cases part using partCases p.scope with
    | gate call => rw [runPartWithin_gate]; exact lands_call p todo origin targets call
    | pipeline r parts hr => rw [runPartWithin_zero hr]; trivial
    | unresolved r hr => exact lands_unresolved hr todo origin targets 0
  | succ depth ih =>
    cases part using partCases p.scope with
    | gate call => rw [runPartWithin_gate]; exact lands_call p todo origin targets call
    | pipeline r parts hr =>
      apply Lands.step
      rw [step, Task.move, moveNamed_pipeline hr, runPartWithin_succ _ hr]
      exact lands_parts (fun part cs todo => ih part ⟨p.scope, cs⟩ todo) _ p.circuits todo
    | unresolved r hr => exact lands_unresolved hr todo origin targets (depth + 1)

theorem lands_part (origin : Origin) (targets : Targets) (part : Part) (p : Progress)
    (todo : List Task) :
    Lands (working p (.part origin targets part :: todo)) todo
      ((Task.part origin targets part).run p) :=
  lands_partWithin origin targets (2 * p.scope.length) part p todo

theorem lands_branches (bit : Bit) (ifParts : List Part) (elseParts : Option (List Part))
    (target : Entity) (p : Progress) (todo : List Task) :
    Lands (working p (.branches bit ifParts elseParts target :: todo)) todo
      ((Task.branches bit ifParts elseParts target).run p) := by
  refine lands_move todo fun p' tasks hmove => Lands.runEach ?_ p' todo
  obtain ⟨q, -, -, rfl⟩ := moveBranches_opens hmove
  intro task htask p todo
  rw [List.mem_append, List.mem_map, List.mem_map] at htask
  rcases htask with ⟨part, -, rfl⟩ | ⟨part, -, rfl⟩
  · exact lands_part _ _ part p todo
  · exact lands_part _ _ part p todo

theorem lands_node (node : Node) (p : Progress) (todo : List Task) :
    Lands (working p (.node node :: todo)) todo ((Task.node node).run p) := by
  refine lands_move todo fun p' tasks hmove => ?_
  cases node with
  | action target count instruction =>
    obtain ⟨-, targets, parts, rfl⟩ := moveAction_opens hmove
    refine Lands.runEach (fun task htask p todo => ?_) p' todo
    obtain ⟨part, -, rfl⟩ := List.mem_map.mp htask
    exact lands_part _ _ part p todo
  | conditional target name ifParts elseParts =>
    obtain ⟨bit, entities, -, -, rfl⟩ := moveConditional_opens hmove
    refine Lands.runEach (fun task htask p todo => ?_) p' todo
    obtain ⟨entity, -, rfl⟩ := List.mem_map.mp htask
    exact lands_branches bit ifParts elseParts entity p todo
  | _ =>
    obtain ⟨-, rfl⟩ := Move.opens.inj hmove
    exact .refl _

theorem lands_task (task : Task) (p : Progress) (todo : List Task) :
    Lands (working p (task :: todo)) todo (task.run p) := by
  cases task with
  | node node => exact lands_node node p todo
  | branches bit ifParts elseParts target => exact lands_branches bit ifParts elseParts target p todo
  | part origin targets part => exact lands_part origin targets part p todo

theorem lands_finish (p : Progress) (todo : List Task) :
    Lands (working p todo) [] (working p todo).finish := by
  have h : Lands (working p (todo ++ [])) [] (runEach Task.run todo p) :=
    Lands.runEach (fun task _ => lands_task task) p []
  rwa [List.append_nil] at h

/-- Where nothing is left to do, the machine shows what an outcome shows. -/
theorem halts_of_lands {c : Config} {o : Outcome Progress} (h : Lands c [] o) :
    o.Ensures fun p => ∃ n, (step^[n] c).Halted ∧ (step^[n] c).progress = p ∧
      (step^[n] c).boxes = p.circuits.boxes := by
  cases o with
  | done p =>
    obtain ⟨n, hn⟩ := h
    exact ensures_done.mpr ⟨n, by rw [hn]; exact ⟨rfl, rfl, rfl⟩⟩
  | failed e p =>
    obtain ⟨n, hn⟩ := h
    exact ensures_failed.mpr ⟨n, by rw [hn]; exact ⟨trivial, rfl, rfl⟩⟩
  | endless => exact ensures_endless

end Stopping

section Agreement

variable {nodes : List Node} {e : LowerError} {cs : Circuits}

theorem lower_eq_map_finish (nodes : List Node) :
    lower nodes = (start nodes).finish.map Progress.circuits := by
  rw [finish_start]
  rfl

/-- The circuits that lowering leaves are those where the machine stops. -/
theorem lower_halts (nodes : List Node) :
    (lower nodes).Ensures fun cs => ∃ n, (step^[n] (start nodes)).Halted ∧
      (step^[n] (start nodes)).circuits = cs.main :: cs.boxes := by
  rw [lower_eq_map_finish, ensures_map]
  refine (halts_of_lands (lands_finish .initial (nodes.map .node))).mono ?_
  rintro p ⟨n, hhalted, hprogress, hboxes⟩
  refine ⟨n, hhalted, congrArg₂ List.cons ?_ hboxes⟩
  rw [← hprogress]
  rfl

/-- Lowering is done exactly if the machine comes to an end with nothing left to do. -/
theorem lower_eq_done_iff :
    lower nodes = done cs ↔ ∃ scope, Reaches (start nodes) (working ⟨scope, cs⟩ []) := by
  rw [lower_eq_map_finish]
  constructor
  · intro h
    have hland := lands_finish .initial (nodes.map .node)
    rw [← start] at hland
    cases hfin : (start nodes).finish with
    | done p =>
      rw [hfin] at h hland
      rw [map_done, done.injEq] at h
      exact ⟨p.scope, h ▸ hland⟩
    | failed e p => simp [hfin] at h
    | endless => simp [hfin] at h
  · rintro ⟨scope, n, hn⟩
    rw [← finish_iterate n, hn]
    rfl

/-- Lowering fails exactly if the machine is stopped by the same error. -/
theorem lower_eq_failed_iff :
    lower nodes = failed e cs ↔ ∃ scope, Reaches (start nodes) (stopped e ⟨scope, cs⟩) := by
  rw [lower_eq_map_finish]
  constructor
  · intro h
    have hland := lands_finish .initial (nodes.map .node)
    rw [← start] at hland
    cases hfin : (start nodes).finish with
    | done p => simp [hfin] at h
    | failed e p =>
      rw [hfin] at h hland
      rw [map_failed, failed.injEq] at h
      exact ⟨p.scope, h.1 ▸ h.2 ▸ hland⟩
    | endless => simp [hfin] at h
  · rintro ⟨scope, n, hn⟩
    rw [← finish_iterate n, hn]
    rfl

/-- Lowering has no end exactly if the machine never stops. -/
theorem lower_eq_endless_iff :
    lower nodes = endless ↔ ∀ n, ¬(step^[n] (start nodes)).Halted := by
  constructor
  · intro h n hn
    rw [lower_eq_map_finish, ← finish_iterate n] at h
    cases hc : step^[n] (start nodes) with
    | working p todo =>
      rw [hc] at h hn
      cases hn
      simp [Config.finish] at h
    | boxing p box body targets todo => rw [hc] at hn; exact hn
    | stopped e p =>
      rw [hc] at h
      simp [Config.finish] at h
  · intro h
    cases hl : lower nodes with
    | done cs =>
      obtain ⟨scope, n, hn⟩ := lower_eq_done_iff.mp hl
      exact absurd (by rw [hn]; rfl) (h n)
    | failed e cs =>
      obtain ⟨scope, n, hn⟩ := lower_eq_failed_iff.mp hl
      exact absurd (by rw [hn]; trivial) (h n)
    | endless => rfl

end Agreement

end GateScript.Lower
