import GateScript.Compile
import GateScript.Proofs.Lower.Contribution

/-!
Names among the targets of an action.

A target gives one entity for each of its elements, and a name gives what it was declared as. That
need not be a unit: the name of a list stays one entity and is not replaced by its elements. An
action runs on the units and passes over the rest, so on the name of a list or of a pipeline it runs
without any target and has no effect. A conditional action refuses whatever is not a qubit.
-/
namespace GateScript.Lower

open Program Outcome

/-- Is it a qubit or a bit? -/
def Entity.isUnit : Entity → Bool
  | .qubit _ | .bit _ => true
  | .list _ | .pipeline _ => false

/-- The target that stands for a unit. -/
def Entity.item? : Entity → Option TargetItem
  | .qubit q => some (.qubit q)
  | .bit b => some (.bit b)
  | _ => none

section Resolving

variable {scope : Scope}

theorem resolveItems_eq_ok_iff {items : List TargetItem} {entities : List Entity} :
    resolveItems scope items = .ok entities ↔
      List.Forall₂ (fun item entity => resolveItem scope item = .ok entity) items entities := by
  induction items generalizing entities with
  | nil => simp [resolveItems, eq_comm]
  | cons item items ih =>
    rw [resolveItems, List.forall₂_cons_left_iff]
    cases hitem : resolveItem scope item with
    | error e => simp
    | ok entity =>
      simp only [Except.ok.injEq, ← ih]
      cases resolveItems scope items with
      | error e => simp [Except.map]
      | ok rest =>
        constructor
        · rintro ⟨⟩
          exact ⟨entity, rest, rfl, rfl, rfl⟩
        · rintro ⟨_, _, rfl, ⟨⟩, rfl⟩
          rfl

/-- Only names stand for anything but units. -/
theorem isUnit_of_resolveItem {item : TargetItem} {entity : Entity}
    (h : resolveItem scope item = .ok entity) :
    entity.isUnit = true ∨ ∃ x, item = .name x ∧ scope.find? x = some entity := by
  cases item with
  | name x =>
    refine .inr ⟨x, rfl, ?_⟩
    cases hx : scope.find? x with
    | none => simp [resolveItem, hx] at h
    | some found => simpa [resolveItem, hx] using h
  | number n =>
    cases n with
    | int n =>
      by_cases hn : n < 0
      · simp [resolveItem, hn] at h
      · simp only [resolveItem, hn] at h
        cases h
        exact .inl rfl
    | real x => simp [resolveItem] at h
  | qubit q =>
    cases h
    exact .inl rfl
  | bit b =>
    cases h
    exact .inl rfl
  | nothing => simp [resolveItem] at h
  | list => simp [resolveItem] at h

theorem forall_isUnit_iff {items : List TargetItem} {entities : List Entity}
    (h : List.Forall₂ (fun item entity => resolveItem scope item = .ok entity) items entities) :
    (∀ entity ∈ entities, entity.isUnit = true) ↔
      ∀ x entity, .name x ∈ items → scope.find? x = some entity → entity.isUnit = true := by
  induction h with
  | nil => simp
  | @cons item entity items entities hitem _ ih =>
    rw [List.forall_mem_cons, ih]
    constructor
    · rintro ⟨hunit, hrest⟩ x found hx hfind
      rcases List.mem_cons.mp hx with rfl | hx
      · have hsame : entity = found := by simpa [resolveItem, hfind, eq_comm] using hitem
        rwa [← hsame]
      · exact hrest x found hx hfind
    · intro hnames
      refine ⟨?_, fun x found hx => hnames x found (List.mem_cons_of_mem item hx)⟩
      rcases isUnit_of_resolveItem hitem with hunit | ⟨x, rfl, hfind⟩
      · exact hunit
      · exact hnames x entity List.mem_cons_self hfind

theorem resolveTarget_ensureBit (c : Circuit) (bit : Bit) (target : Target) :
    resolveTarget scope (c.ensureBit bit) target = resolveTarget scope c target := by
  cases target with
  | all => simp only [resolveTarget, targetItems, Circuit.qubits_ensureBit]
  | _ => rfl

theorem resolveTarget_name {x : String} {entity : Entity} (h : scope.find? x = some entity)
    (c : Circuit) : resolveTarget scope c (.name x) = .ok [entity] := by
  simp [resolveTarget, targetItems, resolveItems, resolveItem, h, Except.map]

/-- The units among some entities, given as targets, stand for themselves. -/
theorem resolveItems_item? (entities : List Entity) :
    resolveItems scope (entities.filterMap Entity.item?) = .ok (entities.filter Entity.isUnit) := by
  induction entities with
  | nil => rfl
  | cons entity entities ih =>
    rw [List.filterMap_cons, List.filter_cons]
    cases entity with
    | qubit q => simp [Entity.item?, Entity.isUnit, resolveItems, resolveItem, ih, Except.map]
    | bit b => simp [Entity.item?, Entity.isUnit, resolveItems, resolveItem, ih, Except.map]
    | list names => simpa [Entity.item?, Entity.isUnit] using ih
    | pipeline parts => simpa [Entity.item?, Entity.isUnit] using ih

theorem ofEntities_filter (entities : List Entity) :
    Targets.ofEntities (entities.filter Entity.isUnit) = Targets.ofEntities entities := by
  induction entities with
  | nil => rfl
  | cons entity entities ih =>
    simp only [Targets.ofEntities, Targets.mk.injEq] at ih ⊢
    rw [List.filter_cons]
    cases entity <;> simp [List.filterMap_cons, Entity.isUnit, Entity.qubit?, Entity.bit?, ih]

/-- An action runs on the units among its targets. -/
theorem runAction_units {target : Target} {entities : List Entity} {cs : Circuits}
    (h : resolveTarget scope cs.main target = .ok entities) (count : Option Int)
    (instruction : Instruction) :
    runAction scope target count instruction cs =
      runAction scope (.list (entities.filterMap Entity.item?)) count instruction cs := by
  have hunits : resolveTarget scope cs.main (.list (entities.filterMap Entity.item?)) =
      .ok (entities.filter Entity.isUnit) := resolveItems_item? entities
  simp only [runAction, h, hunits, ofEntities_filter]

end Resolving

section Untargeted

variable {scope : Scope} {box : BoxMaker} {condition : Option Condition}

/-- Without targets a gate call looks up its arguments and does nothing else. -/
theorem runCall_untargeted (call : GateCall) (cs : Circuits) :
    runCall box scope ⟨[], []⟩ condition call cs =
      match resolveArgs scope call.args with
      | .error e => .failed e cs
      | .ok _ => .done cs := by
  unfold runCall prepare
  cases resolveArgs scope call.args with
  | error e => rfl
  | ok args => simp [findRule, Prepared.run]

theorem runPipeline_untargeted (parts : List Part) (cs : Circuits) :
    (runPipeline scope ⟨[], []⟩ condition parts cs).Ensures (· = cs) := by
  refine Ensures.runPipelineWith (P := (· = cs)) (fun call cs₁ h => ?_) parts rfl
  subst h
  rw [runCall_untargeted]
  cases resolveArgs scope call.args with
  | error e => exact ensures_failed.mpr rfl
  | ok args => exact ensures_done.mpr rfl

/-- Gate calls that are done on some targets are done without any. -/
theorem runEach_untargeted {targets : Targets} {calls : List GateCall} {cs cs' : Circuits}
    (h : runEach (runCall makeBox scope targets condition) calls cs = .done cs') (cs₀ : Circuits) :
    runEach (runCall makeBox scope ⟨[], []⟩ condition) calls cs₀ = .done cs₀ := by
  induction calls generalizing cs with
  | nil => rfl
  | cons call calls ih =>
    obtain ⟨cs₁, hcall, hrest⟩ := andThen_eq_done h
    have hargs : ∃ args, resolveArgs scope call.args = .ok args := by
      unfold runCall at hcall
      cases hprepare : prepare scope targets call with
      | error e => simp [hprepare] at hcall
      | ok p => exact ⟨p.args, (prepare_ok hprepare).1⟩
    obtain ⟨args, hargs⟩ := hargs
    rw [runEach_cons, runCall_untargeted, hargs]
    exact ih hrest

theorem runTimes_untargeted {targets : Targets} {parts : List Part} {n : Nat} {cs cs' : Circuits}
    (h : runTimes (runPipeline scope targets condition parts) n cs = .done cs') :
    runTimes (runPipeline scope ⟨[], []⟩ condition parts) n cs = .done cs := by
  by_cases hn : n = 0
  · subst hn
    rfl
  · obtain ⟨calls, hcalls, hrun⟩ := runTimes_eq_done (Nat.one_le_iff_ne_zero.mpr hn) h
    have hround : runPipeline scope ⟨[], []⟩ condition parts =
        runEach (runCall makeBox scope ⟨[], []⟩ condition) calls :=
      funext (hcalls.run_eq ⟨[], []⟩ condition)
    rw [hround, runTimes_eq_runEach]
    exact runEach_untargeted hrun cs

/-- What an action comes to is the pipeline, repeated, on the units of its target. -/
theorem runAction_eq_done {target : Target} {count : Option Int} {instruction : Instruction}
    {cs cs' : Circuits} (h : runAction scope target count instruction cs = .done cs') :
    ∃ entities parts, resolveTarget scope cs.main target = .ok entities ∧
      resolveInstruction scope instruction = .ok parts ∧
      runTimes (runPipeline scope (.ofEntities entities) none parts) (rounds count) cs =
        .done cs' := by
  unfold runAction at h
  cases htarget : resolveTarget scope cs.main target with
  | error e => simp [htarget] at h
  | ok entities =>
    cases hparts : resolveInstruction scope instruction with
    | error e => simp [htarget, hparts] at h
    | ok parts => exact ⟨entities, parts, rfl, rfl, by simpa [htarget, hparts] using h⟩

end Untargeted

section Named

variable {scope : Scope} {cs cs' : Circuits}

/-- Branches are run on qubits only. -/
theorem qubit_of_runBranches {bit : Bit} {ifParts : List Part} {elseParts : Option (List Part)}
    {entities : List Entity}
    (h : runEach (runBranches scope bit ifParts elseParts) entities cs = .done cs') :
    ∀ entity ∈ entities, ∃ q, entity = .qubit q := by
  induction entities generalizing cs with
  | nil => simp
  | cons entity entities ih =>
    obtain ⟨cs₁, hentity, hrest⟩ := andThen_eq_done h
    refine List.forall_mem_cons.mpr ⟨?_, ih hrest⟩
    cases entity with
    | qubit q => exact ⟨q, rfl⟩
    | _ => simp [runBranches] at hentity

theorem qubit_of_runConditional {target : Target} {condition : String} {ifParts : List Part}
    {elseParts : Option (List Part)} {entities : List Entity}
    (htarget : resolveTarget scope cs.main target = .ok entities)
    (h : runConditional scope target condition ifParts elseParts cs = .done cs') :
    ∀ entity ∈ entities, ∃ q, entity = .qubit q := by
  unfold runConditional at h
  cases hbit : resolveCondition scope condition with
  | error e => simp [hbit] at h
  | ok bit =>
    simp only [hbit, resolveTarget_ensureBit, htarget] at h
    exact qubit_of_runBranches h

/-- The name of a list or of a pipeline stands for no target. -/
theorem ofEntities_of_not_isUnit {entity : Entity} (h : entity.isUnit = false) :
    Targets.ofEntities [entity] = ⟨[], []⟩ := by
  cases entity with
  | qubit q => simp [Entity.isUnit] at h
  | bit b => simp [Entity.isUnit] at h
  | list names => rfl
  | pipeline parts => rfl

theorem runAction_not_isUnit {x : String} {entity : Entity} (hx : scope.find? x = some entity)
    (hunit : entity.isUnit = false) (count : Option Int) (instruction : Instruction) :
    (runAction scope (.name x) count instruction cs).Ensures (· = cs) := by
  unfold runAction
  rw [resolveTarget_name hx]
  cases resolveInstruction scope instruction with
  | error e => exact ensures_failed.mpr rfl
  | ok parts =>
    simp only [ofEntities_of_not_isUnit hunit]
    refine Ensures.runTimes (fun cs₁ h => ?_) _ rfl
    subst h
    exact runPipeline_untargeted parts cs₁

/-- Names among targets are not resolved to units. An action runs on those units that are there, and
passes over names of lists and of pipelines: on such a name alone it has no effect, and raises no
error where the listed targets do not. A conditional action is done on qubits only. -/
theorem named_targets_ignored (scope : Scope) (cs : Circuits) :
    (∀ target entities, resolveTarget scope cs.main target = .ok entities →
      List.Forall₂ (fun item entity => resolveItem scope item = .ok entity)
        (targetItems cs.main target) entities ∧
      ((∀ entity ∈ entities, entity.isUnit = true) ↔
        ∀ x entity, .name x ∈ targetItems cs.main target → scope.find? x = some entity →
          entity.isUnit = true) ∧
      (∀ count instruction, runAction scope target count instruction cs =
        runAction scope (.list (entities.filterMap Entity.item?)) count instruction cs) ∧
      ∀ condition ifParts elseParts cs',
        runConditional scope target condition ifParts elseParts cs = .done cs' →
          ∀ entity ∈ entities, ∃ q, entity = .qubit q) ∧
    ∀ x entity, scope.find? x = some entity → entity.isUnit = false → ∀ count instruction,
      (runAction scope (.name x) count instruction cs).Ensures (· = cs) ∧
      ∀ names cs', entity = .list names →
        runAction scope (.list (names.map .name)) count instruction cs = .done cs' →
          runAction scope (.name x) count instruction cs = .done cs := by
  constructor
  · intro target entities h
    have hforall := resolveItems_eq_ok_iff.mp h
    exact ⟨hforall, forall_isUnit_iff hforall, runAction_units h,
      fun _ _ _ _ => qubit_of_runConditional h⟩
  · intro x entity hx hunit count instruction
    refine ⟨runAction_not_isUnit hx hunit count instruction, fun names cs' _ hdone => ?_⟩
    obtain ⟨entities, parts, -, hparts, hrun⟩ := runAction_eq_done hdone
    simp only [runAction, resolveTarget_name hx, hparts, ofEntities_of_not_isUnit hunit]
    exact runTimes_untargeted hrun

/-- Two qubits and a list of both. -/
def bothScope : Scope :=
  [("both", .list ["x", "y"]), ("y", .qubit (.default 1)), ("x", .qubit (.default 0))]

/-- The list is passed over, although the action is done on its elements. -/
theorem named_targets_ignored_both :
    (∃ cs', runAction bothScope (.list [.name "x", .name "y"]) none (.parts [.gate ⟨"H", []⟩])
      ⟨.blank 0, []⟩ = .done cs' ∧ cs' ≠ ⟨.blank 0, []⟩) ∧
    runAction bothScope (.name "both") none (.parts [.gate ⟨"H", []⟩]) ⟨.blank 0, []⟩ =
      .done ⟨.blank 0, []⟩ ∧
    runAction bothScope (.list [.name "both", .name "x"]) none (.parts [.gate ⟨"H", []⟩])
      ⟨.blank 0, []⟩ =
      runAction bothScope (.list [.qubit (.default 0)]) none (.parts [.gate ⟨"H", []⟩])
        ⟨.blank 0, []⟩ := by
  have hdone : ∃ cs', runAction bothScope (.list [.name "x", .name "y"]) none
      (.parts [.gate ⟨"H", []⟩]) ⟨.blank 0, []⟩ = .done cs' ∧ cs' ≠ ⟨.blank 0, []⟩ :=
    ⟨_, rfl, by decide⟩
  obtain ⟨cs', h, hne⟩ := hdone
  have hnamed := (named_targets_ignored bothScope ⟨.blank 0, []⟩).2 "both" _ rfl rfl none
    (.parts [.gate ⟨"H", []⟩])
  have hunits := (named_targets_ignored bothScope ⟨.blank 0, []⟩).1
    (.list [.name "both", .name "x"]) [.list ["x", "y"], .qubit (.default 0)] rfl
  exact ⟨⟨cs', h, hne⟩, hnamed.2 ["x", "y"] cs' rfl h, hunits.2.2.1 none _⟩

/-- An action on the name of a list differs from the one on its elements, and the name of a pipeline
is no error. -/
theorem circuitsOfText_named_list :
    circuitsOfText "x : q 0\ny : q 1\nboth : [x, y]\nboth -> H" =
      .ok (.done ⟨.blank 0, []⟩) ∧
    circuitsOfText "x : q 0\ny : q 1\n[x, y] -> H" ≠ .ok (.done ⟨.blank 0, []⟩) ∧
    circuitsOfText "turn : H\nturn -> X" = .ok (.done ⟨.blank 0, []⟩) := by
  decide +kernel

end Named

end GateScript.Lower
