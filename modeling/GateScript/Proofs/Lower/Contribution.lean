import GateScript.Proofs.Lower.Alike
import GateScript.Proofs.Lower.BoxBody
import GateScript.Proofs.Lower.DefaultBits
import GateScript.Proofs.Lower.Execution
import GateScript.Proofs.Lower.Reversal

/-!
What the gate calls of an action contribute to the circuit.

Most gates act on one target at a time, and record for each what they record for it alone. Five
names act on all targets jointly. Whatever else an action records adds units, so apart from that it
records what its gate calls contribute, one after the other and once for every round.
-/
namespace GateScript

/-- Does the operation add a unit? -/
def Operation.adds : Operation → Bool
  | .addQubit _ | .addBit _ => true
  | _ => false

/-- The calls that do more than add a unit. -/
def effects (calls : List Call) : List Call := calls.filter fun call => !call.operation.adds

namespace Circuit

/-- One circuit has the calls of another and more, of which `block` are effects. -/
def Gains (c : Circuit) (block : List Call) (c' : Circuit) : Prop :=
  ∃ new, c'.calls = c.calls ++ new ∧ effects new = block

theorem Gains.refl (c : Circuit) : c.Gains [] c := ⟨[], by simp, rfl⟩

theorem Gains.trans {c c' c'' : Circuit} {block block' : List Call} (h : c.Gains block c')
    (h' : c'.Gains block' c'') : c.Gains (block ++ block') c'' := by
  obtain ⟨new, hnew, rfl⟩ := h
  obtain ⟨new', hnew', rfl⟩ := h'
  refine ⟨new ++ new', ?_, List.filter_append ..⟩
  rw [hnew', hnew, List.append_assoc]

/-- Units that are added are no effect. -/
theorem Records.gains {c c' : Circuit} (h : Records Call.IsAllocation c c') : c.Gains [] c' := by
  obtain ⟨new, hnew, hkind⟩ := h.exists_calls
  refine ⟨new, hnew, List.filter_eq_nil_iff.mpr fun call hcall => ?_⟩
  cases hkind call hcall <;> simp [Operation.adds]

theorem gains_ensureQubits (c : Circuit) (qs : List Qubit) : c.Gains [] (c.ensureQubits qs) :=
  (records_ensureQubits .addBit .addQubit c qs).gains

theorem gains_record (c : Circuit) {operation : Operation} (condition : Option Condition)
    (h : operation.adds = false) :
    c.Gains [⟨operation, condition⟩] (c.record operation condition) :=
  ⟨[⟨operation, condition⟩], rfl, by simp [effects, h]⟩

/-- What is gained one element after the other is gained by all of them. -/
theorem gains_foldl {α : Type} {step : Circuit → α → Circuit} {effect : α → Call}
    (h : ∀ (c : Circuit) (a : α), c.Gains [effect a] (step c a)) (c : Circuit) (as : List α) :
    c.Gains (as.map effect) (as.foldl step c) := by
  induction as generalizing c with
  | nil => exact .refl c
  | cons a as ih => exact (h c a).trans (ih (step c a))

theorem mem_qubits_ensureQubit {c : Circuit} {q x : Qubit} :
    x ∈ (c.ensureQubit q).qubits ↔ x ∈ c.qubits ∨ x = q := by
  unfold ensureQubit
  split
  · rename_i hq
    have hq : q ∈ c.qubits := by simpa using hq
    constructor
    · exact .inl
    · rintro (hx | rfl)
      · exact hx
      · exact hq
  · rw [qubits_ensureBit, mem_insertOrdered, or_comm]

theorem mem_qubits_ensureQubits {c : Circuit} {qs : List Qubit} {x : Qubit} :
    x ∈ (c.ensureQubits qs).qubits ↔ x ∈ c.qubits ∨ x ∈ qs := by
  unfold ensureQubits
  induction qs generalizing c with
  | nil => simp
  | cons q qs ih => rw [List.foldl_cons, ih, mem_qubits_ensureQubit, List.mem_cons, or_assoc]

end Circuit

namespace Lower

open Program Outcome Circuit

/-- The gates that act on all targets jointly. -/
def jointGates : List String := ["M", "MEASURE", "BARRIER", "PHASE", "CIRCBOX"]

section Calls

variable {box : BoxMaker} {scope : Scope} {targets : List Qubit} {condition : Option Condition}
  {call : GateCall}

/-- A gate call on qubits alone: the arguments are looked up, then the name, and then the rule is
applied to the targets, once they are present. -/
theorem runCall_qubits (hne : targets ≠ []) (cs : Circuits) :
    runCall box scope ⟨targets, []⟩ condition call cs =
      match resolveArgs scope call.args, qubitRules.lookup call.name with
      | .error e, _ => .failed e cs
      | .ok _, none => .failed (.unknownGate call.name) cs
      | .ok args, some rule =>
        rule.run box args condition targets
          { cs with main := cs.main.ensureQubits targets } := by
  have hempty : targets.isEmpty = false := by simpa using hne
  unfold runCall prepare findRule
  cases resolveArgs scope call.args with
  | error e => rfl
  | ok args =>
    cases qubitRules.lookup call.name with
    | none => simp [hempty]
    | some rule => simp [hempty, Prepared.run]

theorem runCall_eq_done (hne : targets ≠ []) {cs cs' : Circuits}
    (h : runCall box scope ⟨targets, []⟩ condition call cs = .done cs') :
    ∃ args rule, resolveArgs scope call.args = .ok args ∧
      qubitRules.lookup call.name = some rule ∧
      rule.run box args condition targets
        { cs with main := cs.main.ensureQubits targets } = .done cs' := by
  rw [runCall_qubits hne] at h
  cases hargs : resolveArgs scope call.args with
  | error e => simp [hargs] at h
  | ok args =>
    cases hrule : qubitRules.lookup call.name with
    | none => simp [hargs, hrule] at h
    | some rule => exact ⟨args, rule, rfl, rfl, by simpa [hargs, hrule] using h⟩

/-- Is this a name under which the rule is listed? -/
def QubitRule.GoesBy (name : String) : QubitRule → Prop
  | .each _ => name ∉ jointGates
  | .measure => name = "M" ∨ name = "MEASURE"
  | .barrier => name = "BARRIER"
  | .phase => name = "PHASE"
  | .box => name = "CIRCBOX"

instance (name : String) : (rule : QubitRule) → Decidable (rule.GoesBy name)
  | .each _ => inferInstanceAs (Decidable (name ∉ jointGates))
  | .measure => inferInstanceAs (Decidable (name = "M" ∨ name = "MEASURE"))
  | .barrier => inferInstanceAs (Decidable (name = "BARRIER"))
  | .phase => inferInstanceAs (Decidable (name = "PHASE"))
  | .box => inferInstanceAs (Decidable (name = "CIRCBOX"))

theorem goesBy_of_lookup {name : String} {rule : QubitRule}
    (h : qubitRules.lookup name = some rule) : rule.GoesBy name := by
  have hnames : ∀ entry ∈ qubitRules, entry.2.GoesBy entry.1 := by decide
  obtain ⟨before, after, hrules, -⟩ := List.lookup_eq_some_iff.mp h
  apply hnames (name, rule)
  rw [hrules]
  exact List.mem_append_right before List.mem_cons_self

end Calls

section Contributions

/-- With the qubit as its only target the gate call has this effect, whatever there was before. -/
def RecordsAlone (scope : Scope) (call : GateCall) (q : Qubit) (effect : Call) : Prop :=
  ∀ cs : Circuits, ∃ cs',
    runAction scope (.list [.qubit q]) none (.parts [.gate call]) cs = .done cs' ∧
      cs.main.Gains [effect] cs'.main

/-- What a gate call contributes on its way from some circuits to others. -/
inductive Contributes (scope : Scope) (targets : List Qubit) (cs cs' : Circuits) :
    GateCall → List Call → Prop
  | each {call : GateCall} {block : List Call} (hname : call.name ∉ jointGates)
      (h : List.Forall₂ (RecordsAlone scope call) targets block) :
    Contributes scope targets cs cs' call block
  | measureAll {name : String} (hname : name = "M" ∨ name = "MEASURE")
      (hall : cs.main.qubits ⊆ targets) :
    Contributes scope targets cs cs' ⟨name, []⟩ [⟨.measureAll, none⟩]
  | measure {call : GateCall} {args : List Value} (hname : call.name = "M" ∨ call.name = "MEASURE")
      (hsome : call.args ≠ [] ∨ ¬cs.main.qubits ⊆ targets)
      (hargs : resolveArgs scope call.args = .ok args) :
    Contributes scope targets cs cs' call (targets.map fun q =>
      ⟨.measure q ((args.head?.bind Value.bit?).getD (.default q.index)), none⟩)
  | barrier (args : List Argument) :
    Contributes scope targets cs cs' ⟨"BARRIER", args⟩ [⟨.barrier targets, none⟩]
  | phase (angle : Number) (args : List Argument) :
    Contributes scope targets cs cs' ⟨"PHASE", .number angle :: args⟩ [⟨.phase angle, none⟩]
  | box {x : String} {body : List Part} {inner : Circuits} (args : List Argument)
      (hbody : scope.find? x = some (.pipeline body))
      (hinner : runBody body targets.length = .done inner)
      (hboxes : cs'.boxes = cs.boxes ++ [inner.main]) :
    Contributes scope targets cs cs' ⟨"CIRCBOX", .name x :: args⟩
      [⟨.box (cs.boxes.length + 1) targets, none⟩]

/-- Gate calls that are run one after the other, each with what it contributes. -/
inductive Contributions (scope : Scope) (targets : List Qubit) :
    Circuits → List GateCall → List (List Call) → Circuits → Prop
  | nil (cs : Circuits) : Contributions scope targets cs [] [] cs
  | cons {cs cs₁ cs' : Circuits} {call : GateCall} {calls : List GateCall} {block : List Call}
      {blocks : List (List Call)} (hrun : runCall makeBox scope ⟨targets, []⟩ none call cs = .done cs₁)
      (h : Contributes scope targets cs cs₁ call block)
      (rest : Contributions scope targets cs₁ calls blocks cs') :
    Contributions scope targets cs (call :: calls) (block :: blocks) cs'

variable {scope : Scope} {targets : List Qubit} {call : GateCall} {cs cs' : Circuits}

theorem runAction_alone (q : Qubit) :
    runAction scope (.list [.qubit q]) none (.parts [.gate call]) cs =
      runCall makeBox scope ⟨[q], []⟩ none call cs := by
  have htargets : Targets.ofEntities [.qubit q] = ⟨[q], []⟩ := filterMap_qubits [q]
  have hpipeline : runPipeline scope ⟨[q], []⟩ none [.gate call] cs =
      runCall makeBox scope ⟨[q], []⟩ none call cs := by
    rw [runPipeline_eq_runEach, runEach_cons, runPart_gate, runEach_nil, andThen_done_right]
  simp [runAction, resolveTarget, targetItems, resolveItems, resolveItem, Except.map,
    resolveInstruction, htargets, rounds, runTimes, hpipeline]

theorem gains_enter (rule : GateRule) (operands : GateOperands) (condition : Option Condition)
    (c : Circuit) (q : Qubit) :
    c.Gains [⟨.gate rule.kind operands.angles (rule.arrange q operands.partners), condition⟩]
      (rule.enter operands condition c q) :=
  (gains_ensureQubits c operands.partners).trans (gains_record _ condition rfl)

theorem gains_measureOne (destination : Option Bit) (condition : Option Condition) (c : Circuit)
    (q : Qubit) :
    c.Gains [⟨.measure q (destination.getD (.default q.index)), condition⟩]
      (measureOne destination condition c q) :=
  (records_ensureBit .addBit c _).gains.trans (gains_record _ condition rfl)

/-- A gate on single targets contributes what it records for each target alone. -/
theorem contributes_each {rule : GateRule} {args : List Value} (hne : targets ≠ [])
    (hargs : resolveArgs scope call.args = .ok args)
    (hrule : qubitRules.lookup call.name = some (.each rule))
    (h : QubitRule.run makeBox (.each rule) args none targets
      { cs with main := cs.main.ensureQubits targets } = .done cs') :
    ∃ block, Contributes scope targets cs cs' call block ∧ cs.main.Gains block cs'.main := by
  cases hoperands : rule.operands args with
  | error e => simp [run_each_error hoperands hne] at h
  | ok operands =>
    rw [run_each_ok hoperands] at h
    cases h
    have hgains := gains_foldl (gains_enter rule operands none) (cs.main.ensureQubits targets) targets
    refine ⟨_, .each (goesBy_of_lookup hrule) ?_, (gains_ensureQubits _ _).trans hgains⟩
    rw [List.nil_append, List.forall₂_map_right_iff, List.forall₂_same]
    intro q _ cs₀
    have halone : runAction scope (.list [.qubit q]) none (.parts [.gate call]) cs₀ =
        .done { cs₀ with main := rule.enter operands none (cs₀.main.ensureQubits [q]) q } := by
      rw [runAction_alone, runCall_qubits (List.cons_ne_nil q []), hargs, hrule]
      exact run_each_ok hoperands makeBox none
    exact ⟨_, halone, (gains_ensureQubits _ [q]).trans (gains_enter rule operands none _ q)⟩

theorem measureQubits_eq_measureAll {c : Circuit} (h : c.qubits ⊆ targets) :
    measureQubits [] none targets (c.ensureQubits targets) =
      (c.ensureQubits targets).measureAll := by
  refine measureQubits_all (fun q hq => mem_qubits_ensureQubits.mpr (.inr hq)) fun q hq => ?_
  rcases mem_qubits_ensureQubits.mp hq with hq | hq
  · exact h hq
  · exact hq

theorem measureQubits_eq_foldl {args : List Value} {c : Circuit}
    (h : args ≠ [] ∨ ¬c.qubits ⊆ targets) :
    measureQubits args none targets (c.ensureQubits targets) =
      targets.foldl (measureOne (args.head?.bind Value.bit?) none) (c.ensureQubits targets) := by
  have hpath : (args.isEmpty && sameElements targets (c.ensureQubits targets).qubits) = false := by
    rw [Bool.and_eq_false_iff]
    rcases h with h | h
    · exact .inl (by simpa using h)
    · refine .inr (Bool.eq_false_iff.mpr fun hsame => h fun q hq => ?_)
      exact (sameElements_iff.mp hsame).2 (mem_qubits_ensureQubits.mpr (.inl hq))
  simp [measureQubits, hpath]

theorem forall₂_of_resolveArgs {args : List Argument} {values : List Value}
    (h : resolveArgs scope args = .ok values) :
    List.Forall₂ (fun arg value => resolveArg scope arg = .ok value) args values := by
  induction args generalizing values with
  | nil =>
    cases h
    exact .nil
  | cons arg args ih =>
    rw [resolveArgs_cons] at h
    cases hvalue : resolveArg scope arg with
    | error e => simp [hvalue] at h
    | ok value =>
      cases hrest : resolveArgs scope args with
      | error e => simp [hvalue, hrest, Except.map] at h
      | ok rest =>
        simp only [hvalue, hrest, Except.map, Except.ok.injEq] at h
        subst h
        exact .cons hvalue (ih hrest)

theorem eq_number_of_resolveArg {arg : Argument} {n : Number}
    (h : resolveArg scope arg = .ok (.number n)) : arg = .number n := by
  cases arg with
  | number m => simpa [resolveArg] using h
  | name x =>
    unfold resolveArg at h
    cases hx : scope.find? x <;> simp [hx] at h

theorem eq_name_of_resolveArg {arg : Argument} {entity : Entity}
    (h : resolveArg scope arg = .ok (.entity entity)) :
    ∃ x, arg = .name x ∧ scope.find? x = some entity := by
  cases arg with
  | number m => simp [resolveArg] at h
  | name x =>
    refine ⟨x, rfl, ?_⟩
    unfold resolveArg at h
    cases hx : scope.find? x with
    | none => simp [hx] at h
    | some found => simpa [hx] using h

theorem contributes_measure {args : List Value} (hname : call.name = "M" ∨ call.name = "MEASURE")
    (hargs : resolveArgs scope call.args = .ok args) :
    ∃ block, Contributes scope targets cs
      { cs with main := measureQubits args none targets (cs.main.ensureQubits targets) } call block ∧
      cs.main.Gains block (measureQubits args none targets (cs.main.ensureQubits targets)) := by
  by_cases hall : call.args = [] ∧ cs.main.qubits ⊆ targets
  · obtain ⟨hnil, hall⟩ := hall
    obtain ⟨name, _⟩ := call
    subst hnil
    cases hargs
    refine ⟨_, .measureAll hname hall, ?_⟩
    rw [measureQubits_eq_measureAll hall]
    exact (gains_ensureQubits cs.main targets).trans ⟨[⟨.measureAll, none⟩], rfl, rfl⟩
  · have hsome : call.args ≠ [] ∨ ¬cs.main.qubits ⊆ targets := not_and_or.mp hall
    refine ⟨_, .measure hname hsome hargs, ?_⟩
    have hpath : args ≠ [] ∨ ¬cs.main.qubits ⊆ targets := by
      refine hsome.imp_left fun h hnil => h ?_
      subst hnil
      exact List.forall₂_nil_right_iff.mp (forall₂_of_resolveArgs hargs)
    rw [measureQubits_eq_foldl hpath]
    exact (gains_ensureQubits cs.main targets).trans (gains_foldl (gains_measureOne _ none) _ targets)

theorem onMain_eq_done {step : Circuit → Outcome Circuit} (h : onMain step cs = .done cs') :
    ∃ c, step cs.main = .done c ∧ cs' = { cs with main := c } := by
  unfold onMain at h
  cases hstep : step cs.main with
  | failed e c => simp [hstep] at h
  | endless => simp [hstep] at h
  | done c =>
    rw [hstep, map_done] at h
    cases h
    exact ⟨c, rfl, rfl⟩

theorem contributes_phase {args : List Value} {c : Circuit}
    (hargs : resolveArgs scope call.args = .ok args) (hname : call.name = "PHASE")
    (h : ofCheck (addPhase numberAngle args none) (cs.main.ensureQubits targets) = .done c) :
    ∃ block, Contributes scope targets cs cs' call block ∧ cs.main.Gains block c := by
  have hresolved := forall₂_of_resolveArgs hargs
  obtain ⟨name, arguments⟩ := call
  cases hresolved with
  | nil => simp [addPhase, ofCheck] at h
  | @cons arg value arguments values hvalue _ =>
    cases value with
    | entity entity => simp [addPhase, numberAngle, ofCheck, Except.map] at h
    | number angle =>
      simp only at hname
      subst hname
      cases eq_number_of_resolveArg hvalue
      simp only [addPhase, numberAngle, ofCheck, Except.map, Option.isSome_none] at h
      cases h
      exact ⟨_, .phase angle arguments,
        (gains_ensureQubits _ targets).trans (gains_record _ none rfl)⟩

theorem contributes_box {args : List Value} {body : List Part}
    (hargs : resolveArgs scope call.args = .ok args) (hname : call.name = "CIRCBOX")
    (hbody : boxBody args none = .ok body)
    (h : makeBox body targets { cs with main := cs.main.ensureQubits targets } = .done cs') :
    ∃ block, Contributes scope targets cs cs' call block ∧ cs.main.Gains block cs'.main := by
  have hresolved := forall₂_of_resolveArgs hargs
  obtain ⟨name, arguments⟩ := call
  simp only at hname
  subst hname
  unfold boxBody at hbody
  split at hbody
  · simp at hbody
  · cases hbody
    cases hresolved with
    | cons hvalue _ =>
      obtain ⟨x, rfl, hx⟩ := eq_name_of_resolveArg hvalue
      unfold makeBox at h
      cases hinner : runBody body targets.length with
      | failed e inner => simp [hinner] at h
      | endless => simp [hinner] at h
      | done inner =>
        simp only [hinner] at h
        cases h
        refine ⟨_, .box _ hx hinner rfl, ?_⟩
        exact (gains_ensureQubits _ targets).trans
          ((gains_ensureQubits _ targets).trans (gains_record _ none rfl))
  · simp at hbody

/-- A gate call that is done contributes something, and nothing else has an effect. -/
theorem runCall_contributes (hne : targets ≠ [])
    (h : runCall makeBox scope ⟨targets, []⟩ none call cs = .done cs') :
    ∃ block, Contributes scope targets cs cs' call block ∧ cs.main.Gains block cs'.main := by
  obtain ⟨args, rule, hargs, hrule, hrun⟩ := runCall_eq_done hne h
  have hname := goesBy_of_lookup hrule
  cases rule with
  | each rule => exact contributes_each hne hargs hrule hrun
  | measure =>
    cases hrun
    exact contributes_measure hname hargs
  | barrier =>
    obtain ⟨name, arguments⟩ := call
    cases hname
    cases hrun
    exact ⟨_, .barrier arguments, (gains_ensureQubits _ targets).trans (gains_record _ none rfl)⟩
  | phase =>
    obtain ⟨c, hphase, rfl⟩ := onMain_eq_done hrun
    exact contributes_phase hargs hname hphase
  | box =>
    simp only [QubitRule.run] at hrun
    cases hbody : boxBody args none with
    | error e => simp [hbody] at hrun
    | ok body =>
      rw [hbody] at hrun
      exact contributes_box hargs hname hbody hrun

/-- Gate calls that are done contribute one after the other. -/
theorem runEach_contributions (hne : targets ≠ []) {calls : List GateCall}
    (h : runEach (runCall makeBox scope ⟨targets, []⟩ none) calls cs = .done cs') :
    ∃ blocks, Contributions scope targets cs calls blocks cs' ∧
      cs.main.Gains blocks.flatten cs'.main := by
  induction calls generalizing cs with
  | nil =>
    cases h
    exact ⟨[], .nil _, .refl _⟩
  | cons call calls ih =>
    obtain ⟨cs₁, hcall, hrest⟩ := andThen_eq_done h
    obtain ⟨block, hblock, hgains⟩ := runCall_contributes hne hcall
    obtain ⟨blocks, hblocks, hgains'⟩ := ih hrest
    exact ⟨block :: blocks, .cons hcall hblock hblocks, hgains.trans hgains'⟩

end Contributions

section Rounds

variable {scope : Scope} {parts : List Part} {cs cs' : Circuits}

/-- A pipeline that is run to its end is made of gate calls. -/
theorem Executes.comprises {box : BoxMaker} {targets : Targets} {condition : Option Condition}
    (h : Executes box scope targets condition parts cs (.done cs')) :
    ∃ calls, Comprises scope parts calls := by
  generalize ho : Outcome.done cs' = o at h
  induction h generalizing cs' with
  | nil cs => exact ⟨[], .nil⟩
  | @call call parts _ _ _ _ _ ih =>
    obtain ⟨calls, hcalls⟩ := ih ho
    exact ⟨call :: calls, .gate call hcalls⟩
  | callFails _ _ => simp at ho
  | named hr _ _ ihbody ih =>
    obtain ⟨inner, hinner⟩ := ihbody rfl
    obtain ⟨calls, hcalls⟩ := ih ho
    refine ⟨inner ++ calls, ?_⟩
    rw [Comprises, List.map_append]
    exact .named hr hinner hcalls
  | namedFails _ _ _ _ => simp at ho
  | unresolved _ _ _ => simp at ho

/-- Rounds that are done run the same gate calls again and again. -/
theorem runTimes_eq_done {targets : Targets} {condition : Option Condition} {n : Nat} (hn : 1 ≤ n)
    (h : runTimes (runPipeline scope targets condition parts) n cs = .done cs') :
    ∃ calls, Comprises scope parts calls ∧
      runEach (runCall makeBox scope targets condition) (List.replicate n calls).flatten cs =
        .done cs' := by
  obtain ⟨m, rfl⟩ := Nat.exists_eq_add_of_le' hn
  obtain ⟨cs₁, hfirst, -⟩ := andThen_eq_done h
  have hexec : Executes makeBox scope targets condition parts cs (.done cs₁) :=
    (executes_iff makeBox_regular).mpr ⟨by simp, hfirst⟩
  obtain ⟨calls, hcalls⟩ := hexec.comprises
  have hround : runPipeline scope targets condition parts =
      runEach (runCall makeBox scope targets condition) calls :=
    funext (hcalls.run_eq targets condition)
  rw [hround, runTimes_eq_runEach] at h
  exact ⟨calls, hcalls, h⟩

/-- An action that is done on qubits records, apart from added units, what its gate calls contribute:
in every round one call after the other, on the targets in their order. -/
theorem runAction_effects {target : Target} {count : Option Int} {instruction : Instruction}
    {targets : List Qubit} {n : Nat}
    (h : runAction scope target count instruction cs = .done cs')
    (htargets : resolveTarget scope cs.main target = .ok (targets.map .qubit))
    (hne : targets ≠ []) (hcount : count = none ∧ n = 1 ∨ count = some (n : Int) ∧ 1 ≤ n) :
    ∃ parts calls blocks new, resolveInstruction scope instruction = .ok parts ∧
      Comprises scope parts calls ∧ cs'.main.calls = cs.main.calls ++ new ∧
      effects new = blocks.flatten ∧
      Contributions scope targets cs (List.replicate n calls).flatten blocks cs' := by
  have hrounds : rounds count = n ∧ 1 ≤ n := by
    rcases hcount with ⟨rfl, rfl⟩ | ⟨rfl, hn⟩
    · exact ⟨rfl, le_rfl⟩
    · have hzero : n ≠ 0 := by omega
      exact ⟨by simp [rounds, hzero], hn⟩
  obtain ⟨hrounds, hn⟩ := hrounds
  unfold runAction at h
  rw [htargets] at h
  cases hparts : resolveInstruction scope instruction with
  | error e => simp [hparts] at h
  | ok parts =>
    simp only [hparts, filterMap_qubits, hrounds] at h
    obtain ⟨calls, hcalls, hrun⟩ := runTimes_eq_done hn h
    obtain ⟨blocks, hblocks, new, hnew, heffects⟩ := runEach_contributions hne hrun
    exact ⟨parts, calls, blocks, new, rfl, hcalls, hnew, heffects, hblocks⟩

/-- Two rounds of a named pipeline with a gate on single targets, a box, a barrier and a measurement. -/
def surveyScope : Scope :=
  [("bell", .pipeline [.gate ⟨"H", []⟩]),
    ("survey", .pipeline [.gate ⟨"CX", [.number (.int 2)]⟩, .gate ⟨"CIRCBOX", [.name "bell"]⟩,
      .gate ⟨"BARRIER", []⟩, .gate ⟨"M", []⟩])]

theorem runAction_effects_survey :
    ∃ cs', runAction surveyScope (.list [.number (.int 1), .number (.int 0)]) (some 2)
        (.name "survey") ⟨.blank 0, []⟩ = .done cs' ∧
      ∃ parts calls blocks new, resolveInstruction surveyScope (.name "survey") = .ok parts ∧
        Comprises surveyScope parts calls ∧ cs'.main.calls = [] ++ new ∧
        effects new = blocks.flatten ∧
        Contributions surveyScope [.default 1, .default 0] ⟨.blank 0, []⟩
          (List.replicate 2 calls).flatten blocks cs' := by
  have hdone : ∃ cs', runAction surveyScope (.list [.number (.int 1), .number (.int 0)]) (some 2)
      (.name "survey") ⟨.blank 0, []⟩ = .done cs' := ⟨_, rfl⟩
  obtain ⟨cs', h⟩ := hdone
  exact ⟨cs', h, runAction_effects h rfl (by simp) (.inr ⟨rfl, by decide⟩)⟩

end Rounds

end Lower

end GateScript
