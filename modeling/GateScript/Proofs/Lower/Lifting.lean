import GateScript.Proofs.Lower.TargetNames

/-!
Conditional actions as conditioned runs of the unconditional one.

Apart from the joint gates nothing that a gate call does depends on a condition: it is copied into
what the gate records, and not into the units that are added. So a run under a condition is the run
without one, with the condition attached to what it records. Both runs are read off one run from the
same circuit without its calls, which no gate looks at.
-/
namespace GateScript

/-- Puts an operation under a condition. Units are added in any case. -/
def Call.under (condition : Option Condition) (call : Call) : Call :=
  if call.operation.adds then call else { call with condition }

theorem Call.under_under (condition condition' : Option Condition) (call : Call) :
    (call.under condition').under condition = call.under condition := by
  unfold Call.under
  by_cases hadds : call.operation.adds = true
  · simp [hadds]
  · simp [hadds]

namespace Circuit

/-- The circuit with its calls under a condition, after some calls before. -/
def lift (before : List Call) (condition : Option Condition) (c : Circuit) : Circuit :=
  { c with calls := before ++ c.calls.map (Call.under condition) }

variable (before : List Call) (condition : Option Condition)

theorem lift_record {operation : Operation} (h : operation.adds = false) (c : Circuit) :
    (c.record operation none).lift before condition =
      (c.lift before condition).record operation condition := by
  simp [lift, record, Call.under, h]

theorem lift_ensureBit (c : Circuit) (b : Bit) :
    (c.ensureBit b).lift before condition = (c.lift before condition).ensureBit b := by
  have hbits : (c.lift before condition).bits = c.bits := rfl
  unfold ensureBit
  rw [hbits]
  split
  · rfl
  · simp [lift, record, Call.under, Operation.adds]

theorem lift_ensureQubit (c : Circuit) (q : Qubit) :
    (c.ensureQubit q).lift before condition = (c.lift before condition).ensureQubit q := by
  have hqubits : (c.lift before condition).qubits = c.qubits := rfl
  unfold ensureQubit
  rw [hqubits]
  split
  · rfl
  · rw [lift_ensureBit]
    simp [lift, record, Call.under, Operation.adds]

theorem lift_ensureQubits (c : Circuit) (qs : List Qubit) :
    (c.ensureQubits qs).lift before condition = (c.lift before condition).ensureQubits qs := by
  unfold ensureQubits
  induction qs generalizing c with
  | nil => rfl
  | cons q qs ih => rw [List.foldl_cons, List.foldl_cons, ih, lift_ensureQubit]

end Circuit

namespace Lower

open Program Outcome Circuit

/-- Lifts the main circuit. -/
def Circuits.lift (before : List Call) (condition : Option Condition) (cs : Circuits) : Circuits :=
  { cs with main := cs.main.lift before condition }

/-- Attaches a condition to what was recorded after the first `count` calls. -/
def Circuits.attach (condition : Condition) (count : Nat) (cs : Circuits) : Circuits :=
  let new := (cs.main.calls.drop count).map (Call.under (some condition))
  { cs with main := { cs.main with calls := cs.main.calls.take count ++ new } }

theorem Circuits.attach_lift (before : List Call) (condition : Condition) (cs : Circuits) :
    (cs.lift before none).attach condition before.length = cs.lift before (some condition) := by
  have hunder : Call.under (some condition) ∘ Call.under none = Call.under (some condition) :=
    funext (Call.under_under (some condition) none)
  simp [Circuits.attach, Circuits.lift, Circuit.lift, hunder]

section Lifting

variable {scope : Scope} {targets : List Qubit}

variable (before : List Call) (condition : Option Condition)

theorem lift_enter (rule : GateRule) (operands : GateOperands) (c : Circuit) (q : Qubit) :
    (rule.enter operands none c q).lift before condition =
      rule.enter operands condition (c.lift before condition) q := by
  unfold GateRule.enter
  rw [lift_record _ _ rfl, lift_ensureQubits]

theorem lift_foldl_enter (rule : GateRule) (operands : GateOperands) (c : Circuit)
    (targets : List Qubit) :
    (targets.foldl (rule.enter operands none) c).lift before condition =
      targets.foldl (rule.enter operands condition) (c.lift before condition) := by
  induction targets generalizing c with
  | nil => rfl
  | cons q targets ih => rw [List.foldl_cons, List.foldl_cons, ih, lift_enter]

/-- One gate call, other than a joint one, under a condition. -/
theorem map_runCall_lift {call : GateCall} (hname : call.name ∉ jointGates) (hne : targets ≠ [])
    (cs : Circuits) :
    (runCall makeBox scope ⟨targets, []⟩ none call cs).map (Circuits.lift before condition) =
      runCall makeBox scope ⟨targets, []⟩ condition call (cs.lift before condition) := by
  have hensure : Circuits.lift before condition { cs with main := cs.main.ensureQubits targets } =
      { cs.lift before condition with
        main := (cs.lift before condition).main.ensureQubits targets } := by
    simp only [Circuits.lift, lift_ensureQubits]
  rw [runCall_qubits hne, runCall_qubits hne]
  cases resolveArgs scope call.args with
  | error e => rfl
  | ok args =>
    cases hrule : qubitRules.lookup call.name with
    | none => rfl
    | some rule =>
      have hgoes := goesBy_of_lookup hrule
      cases rule with
      | each rule =>
        simp only
        rw [← hensure]
        cases hoperands : rule.operands args with
        | error e =>
          rw [run_each_error hoperands hne, run_each_error hoperands hne, map_failed]
          simp only [Circuits.lift, lift_ensureQubits]
        | ok operands =>
          rw [run_each_ok hoperands, run_each_ok hoperands, map_done]
          simp only [Circuits.lift, lift_foldl_enter]
      | measure => rcases hgoes with hgoes | hgoes <;> simp [hgoes, jointGates] at hname
      | barrier => simp [show call.name = _ from hgoes, jointGates] at hname
      | phase => simp [show call.name = _ from hgoes, jointGates] at hname
      | box => simp [show call.name = _ from hgoes, jointGates] at hname

/-- The pipeline, with all that it refers to, has no joint gates. -/
def Separable (scope : Scope) (parts : List Part) : Prop :=
  ∀ call, PartOf scope parts (.gate call) → call.name ∉ jointGates

variable {before condition}

theorem Separable.of_mem {parts : List Part} (h : Separable scope parts) {part : Part}
    (hpart : part ∈ parts) : Separable scope [part] := by
  intro call hcall
  refine h call (hcall.mono fun x hx => ?_)
  rw [List.mem_singleton.mp hx]
  exact hpart

theorem Separable.of_body {r : Reference} {body : List Part} (h : Separable scope [.named r])
    (hr : scope.find? r.name = some (.pipeline body)) : Separable scope (oriented r body) := by
  intro call hcall
  have hbody : PartOf scope body (.gate call) := hcall.mono (oriented_subset r body)
  exact h call (hbody.of_body (.direct List.mem_cons_self) hr)

/-- A pipeline has no joint gates if none stands in it or in a pipeline that is declared. -/
theorem separable_of_scope {parts : List Part}
    (hparts : ∀ call, .gate call ∈ parts → call.name ∉ jointGates)
    (hscope : ∀ name body, (name, Entity.pipeline body) ∈ scope →
      ∀ call, .gate call ∈ body → call.name ∉ jointGates) : Separable scope parts := by
  intro call hcall
  cases hcall with
  | direct hmem => exact hparts call hmem
  | @inner r body _ _ hr hmem => exact hscope r.name body (mem_of_find? hr) call hmem

/-- Parts are lifted with all that they refer to, by induction on the names that may be open. -/
theorem map_runPartWithin_lift (hne : targets ≠ []) {depth : Nat} {part : Part}
    (h : Separable scope [part]) (cs : Circuits) :
    (runPartWithin makeBox scope ⟨targets, []⟩ none depth part cs).map
        (Circuits.lift before condition) =
      runPartWithin makeBox scope ⟨targets, []⟩ condition depth part (cs.lift before condition) := by
  induction depth generalizing part cs with
  | zero =>
    cases part using partCases scope with
    | gate call =>
      rw [runPartWithin_gate, runPartWithin_gate]
      exact map_runCall_lift before condition (h call (.direct List.mem_cons_self)) hne cs
    | pipeline r body hr => rw [runPartWithin_zero hr, runPartWithin_zero hr, map_endless]
    | unresolved r hr =>
      rw [runPartWithin_unresolved _ hr, runPartWithin_unresolved _ hr, map_failed]
  | succ depth ih =>
    cases part using partCases scope with
    | gate call =>
      rw [runPartWithin_gate, runPartWithin_gate]
      exact map_runCall_lift before condition (h call (.direct List.mem_cons_self)) hne cs
    | pipeline r body hr =>
      rw [runPartWithin_succ _ hr, runPartWithin_succ _ hr]
      exact map_runEach (fun part hpart => ih ((h.of_body hr).of_mem hpart)) cs
    | unresolved r hr =>
      rw [runPartWithin_unresolved _ hr, runPartWithin_unresolved _ hr, map_failed]

theorem map_runPipeline_lift {parts : List Part} (h : Separable scope parts) (hne : targets ≠ [])
    (cs : Circuits) :
    (runPipeline scope ⟨targets, []⟩ none parts cs).map (Circuits.lift before condition) =
      runPipeline scope ⟨targets, []⟩ condition parts (cs.lift before condition) := by
  rw [runPipeline_eq_runEach, runPipeline_eq_runEach]
  exact map_runEach (fun part hpart => map_runPartWithin_lift hne (h.of_mem hpart)) cs

/-- Runs a pipeline on one qubit without a condition, and attaches one to what it records. -/
def runUnder (scope : Scope) (q : Qubit) (condition : Condition) (parts : List Part)
    (cs : Circuits) : Outcome Circuits :=
  (runPipeline scope ⟨[q], []⟩ none parts cs).map (Circuits.attach condition cs.main.calls.length)

theorem runPipeline_eq_runUnder {parts : List Part} (h : Separable scope parts) (q : Qubit)
    (condition : Condition) (cs : Circuits) :
    runPipeline scope ⟨[q], []⟩ (some condition) parts cs = runUnder scope q condition parts cs := by
  -- both start from the same circuit without its calls
  let bare : Circuits := { cs with main := { cs.main with calls := [] } }
  have hbare : ∀ condition, bare.lift cs.main.calls condition = cs := by
    intro condition
    simp [bare, Circuits.lift, Circuit.lift]
  have hlift : ∀ condition, runPipeline scope ⟨[q], []⟩ condition parts cs =
      (runPipeline scope ⟨[q], []⟩ none parts bare).map (Circuits.lift cs.main.calls condition) := by
    intro condition
    rw [map_runPipeline_lift h (List.cons_ne_nil q []), hbare]
  rw [runUnder, hlift (some condition), hlift none]
  cases runPipeline scope ⟨[q], []⟩ none parts bare with
  | done after => rw [map_done, map_done, map_done, Circuits.attach_lift]
  | failed e after => rw [map_failed, map_failed, map_failed, Circuits.attach_lift]
  | endless => rfl

/-- Runs the branches on one qubit, each without a condition, and attaches the condition. -/
def liftBranches (scope : Scope) (bit : Bit) (ifParts : List Part) (elseParts : Option (List Part))
    (q : Qubit) (cs : Circuits) : Outcome Circuits :=
  (runUnder scope q ⟨bit, true⟩ ifParts { cs with main := cs.main.ensureQubit q }).andThen fun cs =>
    match elseParts with
    | none => .done cs
    | some parts => runUnder scope q ⟨bit, false⟩ parts cs

theorem runBranches_eq_liftBranches {bit : Bit} {ifParts : List Part}
    {elseParts : Option (List Part)} (hif : Separable scope ifParts)
    (helse : ∀ parts, elseParts = some parts → Separable scope parts) (q : Qubit) (cs : Circuits) :
    runBranches scope bit ifParts elseParts (.qubit q) cs =
      liftBranches scope bit ifParts elseParts q cs := by
  unfold runBranches liftBranches
  simp only
  rw [runPipeline_eq_runUnder hif]
  congr 1
  funext after
  cases elseParts with
  | none => rfl
  | some parts => exact runPipeline_eq_runUnder (helse parts rfl) q ⟨bit, false⟩ after

/-- A branch fails without its condition. The circuits are left with what it recorded up to there,
under the condition. -/
inductive BranchFails (scope : Scope) (bit : Bit) (ifParts : List Part)
    (elseParts : Option (List Part)) (q : Qubit) (cs : Circuits) : LowerError → Circuits → Prop
  | ifBranch {e : LowerError} {after : Circuits}
      (h : runPipeline scope ⟨[q], []⟩ none ifParts cs = .failed e after) :
    BranchFails scope bit ifParts elseParts q cs e
      (after.attach ⟨bit, true⟩ cs.main.calls.length)
  | elseBranch {parts : List Part} {cs₁ after : Circuits} {e : LowerError}
      (hparts : elseParts = some parts)
      (hif : runUnder scope q ⟨bit, true⟩ ifParts cs = .done cs₁)
      (h : runPipeline scope ⟨[q], []⟩ none parts cs₁ = .failed e after) :
    BranchFails scope bit ifParts elseParts q cs e
      (after.attach ⟨bit, false⟩ cs₁.main.calls.length)

theorem liftBranches_eq_failed_iff {bit : Bit} {ifParts : List Part}
    {elseParts : Option (List Part)} {q : Qubit} {cs cs' : Circuits} {e : LowerError} :
    liftBranches scope bit ifParts elseParts q cs = .failed e cs' ↔
      BranchFails scope bit ifParts elseParts q { cs with main := cs.main.ensureQubit q } e cs' := by
  rw [liftBranches, andThen_eq_failed_iff]
  constructor
  · rintro (hif | ⟨cs₁, hif, helse⟩)
    · obtain ⟨after, h, rfl⟩ := map_eq_failed_iff.mp hif
      exact .ifBranch h
    · cases elseParts with
      | none => simp at helse
      | some parts =>
        obtain ⟨after, h, rfl⟩ := map_eq_failed_iff.mp helse
        exact .elseBranch rfl hif h
  · intro h
    cases h with
    | ifBranch h => exact .inl (map_eq_failed_iff.mpr ⟨_, h, rfl⟩)
    | elseBranch hparts hif h =>
      subst hparts
      exact .inr ⟨_, hif, map_eq_failed_iff.mpr ⟨_, h, rfl⟩⟩

/-- A conditional action is the unconditional one with conditions attached: once the bit is there, the
branches are run on one target after the other, as if they had no condition. It fails exactly where
one of these runs does. -/
theorem runConditional_lifted {name : String} {bit : Bit} {target : Target} {targets : List Qubit}
    {ifParts : List Part} {elseParts : Option (List Part)} {cs : Circuits}
    (hbit : scope.find? name = some (.bit bit))
    (htargets : resolveTarget scope cs.main target = .ok (targets.map .qubit))
    (hif : Separable scope ifParts)
    (helse : ∀ parts, elseParts = some parts → Separable scope parts) :
    let lifted := liftBranches scope bit ifParts elseParts
    let start : Circuits := { cs with main := cs.main.ensureBit bit }
    runConditional scope target name ifParts elseParts cs = runEach lifted targets start ∧
    ∀ e cs', runConditional scope target name ifParts elseParts cs = .failed e cs' ↔
      ∃ before q after cs₁, targets = before ++ q :: after ∧ runEach lifted before start = .done cs₁ ∧
        BranchFails scope bit ifParts elseParts q
          { cs₁ with main := cs₁.main.ensureQubit q } e cs' := by
  intro lifted start
  have hrun : runConditional scope target name ifParts elseParts cs =
      runEach lifted targets start := by
    have hlifted : (fun q => runBranches scope bit ifParts elseParts (.qubit q)) = lifted :=
      funext fun q => funext (runBranches_eq_liftBranches hif helse q)
    unfold runConditional
    simp only [resolveCondition, hbit, resolveTarget_ensureBit, htargets]
    rw [runEach_map, hlifted]
  refine ⟨hrun, fun e cs' => ?_⟩
  simp only [hrun, runEach_eq_failed_iff, lifted, liftBranches_eq_failed_iff]

/-- A bit, and a pipeline with a gate that brings in a qubit of its own. -/
def guardScope : Scope :=
  [("flag", .bit (.default 5)),
    ("turn", .pipeline [.gate ⟨"H", []⟩, .gate ⟨"CX", [.number (.int 2)]⟩])]

/-- The other branch fails on the first of two targets, after one of its gates. -/
theorem runConditional_lifted_guard :
    ∃ cs', runConditional guardScope (.list [.number (.int 1), .number (.int 0)]) "flag"
        [.named ⟨"turn", true⟩] (some [.gate ⟨"S", []⟩, .gate ⟨"SPIN", []⟩]) ⟨.blank 0, []⟩ =
          .failed (.unknownGate "SPIN") cs' ∧
      ∃ before q after cs₁, [.default 1, .default 0] = before ++ q :: after ∧
        runEach (liftBranches guardScope (.default 5) [.named ⟨"turn", true⟩]
          (some [.gate ⟨"S", []⟩, .gate ⟨"SPIN", []⟩])) before
            ⟨(Circuit.blank 0).ensureBit (.default 5), []⟩ = .done cs₁ ∧
        BranchFails guardScope (.default 5) [.named ⟨"turn", true⟩]
          (some [.gate ⟨"S", []⟩, .gate ⟨"SPIN", []⟩]) q
            { cs₁ with main := cs₁.main.ensureQubit q } (.unknownGate "SPIN") cs' := by
  have hscope : ∀ name body, (name, Entity.pipeline body) ∈ guardScope →
      ∀ call, .gate call ∈ body → call.name ∉ jointGates := by
    simp [guardScope, jointGates]
  have hif : Separable guardScope [.named ⟨"turn", true⟩] := separable_of_scope (by simp) hscope
  have helse : ∀ parts, some [.gate ⟨"S", []⟩, .gate ⟨"SPIN", []⟩] = some parts →
      Separable guardScope parts := by
    rintro parts ⟨⟩
    exact separable_of_scope (by simp [jointGates]) hscope
  have hfails : ∃ cs', runConditional guardScope (.list [.number (.int 1), .number (.int 0)]) "flag"
      [.named ⟨"turn", true⟩] (some [.gate ⟨"S", []⟩, .gate ⟨"SPIN", []⟩]) ⟨.blank 0, []⟩ =
        .failed (.unknownGate "SPIN") cs' := ⟨_, rfl⟩
  obtain ⟨cs', h⟩ := hfails
  have htargets : resolveTarget guardScope (Circuit.blank 0)
      (.list [.number (.int 1), .number (.int 0)]) =
        .ok ([Qubit.default 1, Qubit.default 0].map Entity.qubit) := rfl
  exact ⟨cs', h, ((runConditional_lifted rfl htargets hif helse).2 _ _).mp h⟩

end Lifting

end Lower

end GateScript
