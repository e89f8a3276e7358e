import GateScript.Proofs.Lower.Measurement
import GateScript.Proofs.Lower.Stopping

/-!
The bits that come with the qubits.

A qubit is never added alone: the bit of the default register with its index is added with it,
unless it is there. A circuit is changed in four ways only, and each of them keeps a qubit and its
bit together, so they are together whenever the program is stopped. Measuring a qubit without
naming a bit therefore finds the bit in place.
-/
namespace GateScript

namespace Circuit

/-- What each way of changing a circuit keeps. -/
structure Persistent (P : Circuit → Prop) : Prop where
  record : ∀ c operation condition, P c → P (c.record operation condition)
  ensureBit : ∀ c b, P c → P (c.ensureBit b)
  ensureQubit : ∀ c q, P c → P (c.ensureQubit q)
  measureAll : ∀ c, P c → P c.measureAll

namespace Persistent

variable {P : Circuit → Prop} (h : Persistent P) {c : Circuit}

include h

theorem ensureBits (bs : List Bit) (hc : P c) : P (c.ensureBits bs) := by
  unfold Circuit.ensureBits
  induction bs generalizing c with
  | nil => exact hc
  | cons b bs ih => exact ih (h.ensureBit c b hc)

theorem ensureQubits (qs : List Qubit) (hc : P c) : P (c.ensureQubits qs) := by
  unfold Circuit.ensureQubits
  induction qs generalizing c with
  | nil => exact hc
  | cons q qs ih => exact ih (h.ensureQubit c q hc)

end Persistent

/-- Every qubit has the bit of its index. -/
def Paired (c : Circuit) : Prop := ∀ q ∈ c.qubits, Bit.default q.index ∈ c.bits

theorem qubits_ensureBit (c : Circuit) (b : Bit) : (c.ensureBit b).qubits = c.qubits := by
  unfold ensureBit record
  split <;> rfl

theorem bits_subset_ensureBit (c : Circuit) (b : Bit) : c.bits ⊆ (c.ensureBit b).bits :=
  (records_ensureBit (fun _ => trivial) c b : Records (fun _ => True) c _).extension.bits

theorem ensureBit_of_mem {c : Circuit} {b : Bit} (h : b ∈ c.bits) : c.ensureBit b = c := by
  simp [ensureBit, h]

theorem Paired.ensureBit {c : Circuit} (h : c.Paired) (b : Bit) : (c.ensureBit b).Paired := by
  intro q hq
  rw [qubits_ensureBit] at hq
  exact bits_subset_ensureBit c b (h q hq)

theorem Paired.ensureQubit {c : Circuit} (h : c.Paired) (q : Qubit) : (c.ensureQubit q).Paired := by
  unfold Circuit.ensureQubit
  split
  · exact h
  · -- between the two additions the new qubit has no bit yet, so they are taken together
    intro x hx
    rw [qubits_ensureBit] at hx
    rcases mem_insertOrdered.mp hx with rfl | hx
    · exact mem_ensureBit _ _
    · exact bits_subset_ensureBit _ _ (h x hx)

theorem Paired.measureAll {c : Circuit} (h : c.Paired) : c.measureAll.Paired := by
  intro q hq
  rw [bits_measureAll]
  exact mem_withBits.mpr (.inl (h q hq))

theorem paired_persistent : Persistent Paired where
  record _ _ _ h := h
  ensureBit _ b h := h.ensureBit b
  ensureQubit _ q h := h.ensureQubit q
  measureAll _ h := h.measureAll

end Circuit

namespace Lower

open Program Outcome Circuit Config

section Persistence

theorem onMain_ensures {P : Circuit → Prop} {step : Circuit → Outcome Circuit} {cs : Circuits}
    (h : (step cs.main).Ensures P) : (onMain step cs).Ensures fun cs => P cs.main := by
  unfold onMain
  exact ensures_map.mpr h

variable {P : Circuit → Prop} (hP : Persistent P)

include hP

theorem GateRule.apply_persists (rule : GateRule) (angle : AngleReader) (args : List Value)
    (condition : Option Condition) (target : Qubit) {c : Circuit} (hc : P c) :
    (rule.apply angle args condition target c).Ensures P := by
  have hens : ∀ partners, P (c.ensureQubits partners) := fun partners => hP.ensureQubits partners hc
  exact rule.apply_ensures angle args condition target hens fun partners _ =>
    hP.record _ _ _ (hens partners)

theorem foldl_measureOne_persists (destination : Option Bit) (condition : Option Condition)
    (targets : List Qubit) {c : Circuit} (hc : P c) :
    P (targets.foldl (measureOne destination condition) c) := by
  induction targets generalizing c with
  | nil => exact hc
  | cons q targets ih =>
    rw [List.foldl_cons]
    exact ih (hP.record _ _ _ (hP.ensureBit c _ hc))

theorem measureQubits_persists (args : List Value) (condition : Option Condition)
    (targets : List Qubit) {c : Circuit} (hc : P c) :
    P (measureQubits args condition targets c) := by
  unfold measureQubits
  split
  · exact hP.measureAll c hc
  · exact foldl_measureOne_persists hP _ condition targets hc

theorem placeBarrier_persists {condition : Option Condition} {targets : List Qubit}
    {change : Circuit → Circuit} (h : placeBarrier condition targets = .ok change) {c : Circuit}
    (hc : P c) : P (change c) := by
  unfold placeBarrier at h
  split at h
  · simp at h
  · cases h
    exact hP.record c _ _ hc

theorem addPhase_persists {angle : AngleReader} {args : List Value} {condition : Option Condition}
    {change : Circuit → Circuit} (h : addPhase angle args condition = .ok change) {c : Circuit}
    (hc : P c) : P (change c) := by
  unfold addPhase at h
  split at h
  · simp at h
  · rename_i v _
    split at h
    · simp at h
    · cases hv : angle v with
      | error e => simp [hv, Except.map] at h
      | ok phase =>
        simp only [hv, Except.map, Except.ok.injEq] at h
        subst h
        exact hP.record c _ _ hc

theorem BitRule.apply_persists {rule : BitRule} {args : List Value} {target : Bit}
    {change : Circuit → Circuit} (h : rule.apply args target = .ok change) {c : Circuit}
    (hc : P c) : P (change c) := by
  unfold BitRule.apply at h
  split at h
  · cases h
    exact hP.record _ _ _ (hP.ensureBit c target hc)
  · cases h
    exact hP.record _ _ _ (hP.ensureBits _ hc)
  · simp at h
  · simp at h
  · split at h
    · cases h
      exact hP.record _ _ _ (hP.ensureBit c target hc)
    · simp at h
  · simp at h
  · cases h
    exact hP.record _ _ _ (hP.ensureBits _ hc)
  · simp at h
  · cases h
    exact hP.record _ _ _ (hP.ensureBits _ hc)
  · simp at h

theorem QubitRule.run_persists (rule : QubitRule) (args : List Value) (condition : Option Condition)
    (targets : List Qubit) {cs : Circuits} (hc : P cs.main) :
    (rule.run noBox args condition targets cs).Ensures fun cs => P cs.main := by
  cases rule with
  | each rule =>
    apply onMain_ensures
    refine Ensures.runEach (fun q _ c hc => ?_) hc
    exact rule.apply_persists hP numberAngle args condition q hc
  | measure =>
    change (onMain (fun c => done (measureQubits args condition targets c)) cs).Ensures _
    exact onMain_ensures (ensures_done.mpr (measureQubits_persists hP args condition targets hc))
  | barrier =>
    exact onMain_ensures (.ofCheck hc fun _ hchange => placeBarrier_persists hP hchange hc)
  | phase => exact onMain_ensures (.ofCheck hc fun _ hchange => addPhase_persists hP hchange hc)
  | box =>
    simp only [QubitRule.run]
    cases boxBody args condition with
    | error e => exact ensures_failed.mpr hc
    | ok body => exact ensures_done.mpr hc

theorem Prepared.run_persists (prepared : Prepared) (targets : Targets)
    (condition : Option Condition) {cs : Circuits} (hc : P cs.main) :
    (prepared.run noBox targets condition cs).Ensures fun cs => P cs.main := by
  obtain ⟨args, qubitRule, bitRule⟩ := prepared
  apply Ensures.andThen
  · cases qubitRule with
    | none => exact ensures_done.mpr hc
    | some rule =>
      have hens : P (cs.main.ensureQubits targets.qubits) := hP.ensureQubits targets.qubits hc
      exact QubitRule.run_persists hP rule args condition targets.qubits hens
  · intro cs' hc'
    cases bitRule with
    | none => exact ensures_done.mpr hc'
    | some rule =>
      apply onMain_ensures
      refine Ensures.runEach (fun b _ c hc => ?_) hc'
      exact .ofCheck hc fun change hchange => BitRule.apply_persists hP hchange hc

theorem moveCall_persists {p p' : Progress} {origin : Origin} {targets : Targets} {call : GateCall}
    (hc : P p.circuits.main) (h : (moveCall p origin targets call).progress? = some p') :
    P p'.circuits.main := by
  unfold moveCall at h
  split at h
  · cases h
    exact hc
  · rename_i prepared _
    split at h
    · have hens : P (p.circuits.main.ensureQubits targets.qubits) := hP.ensureQubits _ hc
      dsimp only at h
      split at h
      · cases h
        exact hens
      · cases h
        exact hens
    · rw [progress?_ofOutcome] at h
      have hrun := Prepared.run_persists hP prepared targets origin.condition hc
      have hmap : ((prepared.run noBox targets origin.condition p.circuits).map
          (Progress.mk p.scope)).Ensures fun p' => P p'.circuits.main := ensures_map.mpr hrun
      exact hmap p' h

theorem moveConditional_persists {p p' : Progress} {target : Target} {name : String}
    {ifParts : List Part} {elseParts : Option (List Part)} (hc : P p.circuits.main)
    (h : (moveConditional p target name ifParts elseParts).progress? = some p') :
    P p'.circuits.main := by
  unfold moveConditional at h
  split at h
  · cases h
    exact hc
  · rename_i bit _
    have hens : P (p.circuits.main.ensureBit bit) := hP.ensureBit _ bit hc
    dsimp only at h
    split at h
    · cases h
      exact hens
    · cases h
      exact hens

theorem Task.move_persists {task : Task} {p p' : Progress} (hc : P p.circuits.main)
    (h : (task.move p).progress? = some p') : P p'.circuits.main := by
  cases task with
  | node node =>
    cases node with
    | action target count instruction =>
      rw [moveAction_progress h]
      exact hc
    | conditional target name ifParts elseParts => exact moveConditional_persists hP hc h
    | _ =>
      cases h
      exact hc
  | branches bit ifParts elseParts target =>
    cases target with
    | qubit q =>
      cases h
      exact hP.ensureQubit _ q hc
    | _ =>
      cases h
      exact hc
  | part origin targets part =>
    cases part using partCases p.scope with
    | gate call => exact moveCall_persists hP hc h
    | pipeline r parts hr =>
      rw [Task.move, moveNamed_pipeline hr] at h
      cases h
      exact hc
    | unresolved r hr =>
      rw [Task.move, moveNamed_unresolved hr] at h
      cases h
      exact hc

theorem stepBox_persists {p : Progress} (box : Circuit) (targets : List Qubit) (todo : List Task)
    (body : List Part) (hc : P p.circuits.main) : P (stepBox p box targets todo body).main := by
  cases body with
  | nil => exact hP.record _ _ _ (hP.ensureQubits targets hc)
  | cons part body =>
    rw [stepBox]
    cases runBoxPart part ⟨box, []⟩ with
    | done inner => exact hc
    | failed e inner => exact hc
    | endless => exact hc

/-- A step keeps what each way of changing a circuit keeps. -/
theorem step_persists {c : Config} (hc : P c.main) : P (step c).main := by
  cases c with
  | working p todo =>
    cases todo with
    | nil => exact hc
    | cons task todo =>
      have hmoved : ∀ p', (task.move p).progress? = some p' → P p'.circuits.main :=
        fun p' => Task.move_persists hP hc
      rw [step]
      cases hmove : task.move p with
      | opens p' tasks => exact hmoved p' (by rw [hmove]; rfl)
      | boxes p' body targets => exact hmoved p' (by rw [hmove]; rfl)
      | stops e p' => exact hmoved p' (by rw [hmove]; rfl)
      | idles => exact hc
  | boxing p box body targets todo => exact stepBox_persists hP box targets todo body hc
  | stopped e p => exact hc

theorem main_iterate (hblank : P (.blank 0)) (nodes : List Node) (n : Nat) :
    P (step^[n] (start nodes)).main := by
  induction n with
  | zero => exact hblank
  | succ n ih =>
    rw [Function.iterate_succ_apply']
    exact step_persists hP ih

end Persistence

theorem paired_iterate (nodes : List Node) (n : Nat) : (step^[n] (start nodes)).main.Paired := by
  apply main_iterate paired_persistent
  intro q hq
  simp [blank] at hq

section Measuring

variable {condition : Option Condition} {targets : List Qubit} {c : Circuit}

/-- A qubit is measured on its own: the bit for its outcome is in place. -/
theorem measureOne_of_paired (h : c.Paired) {q : Qubit} (hq : q ∈ c.qubits) :
    measureOne none condition c q = c.record (.measure q (.default q.index)) condition := by
  have hbit : Bit.default q.index ∈ c.bits := h q hq
  simp only [measureOne, Option.getD_none, ensureBit_of_mem hbit]

theorem foldl_measureOne_of_paired (h : c.Paired) (htargets : targets ⊆ c.qubits) :
    (targets.foldl (measureOne none condition) c).bits = c.bits ∧
    (targets.foldl (measureOne none condition) c).calls =
      c.calls ++ targets.map fun q => ⟨.measure q (.default q.index), condition⟩ := by
  induction targets generalizing c with
  | nil => simp
  | cons q targets ih =>
    obtain ⟨hq, htargets⟩ := List.cons_subset.mp htargets
    rw [List.foldl_cons, measureOne_of_paired h hq]
    obtain ⟨hbits, hcalls⟩ := @ih (c.record _ condition) h htargets
    constructor
    · exact hbits
    · rw [hcalls]
      simp [record]

theorem measureQubits_of_paired (h : c.Paired) (htargets : targets ⊆ c.qubits)
    (hown : condition ≠ none ∨ ¬c.qubits ⊆ targets) :
    (measureQubits [] condition targets c).bits = c.bits ∧
    (measureQubits [] condition targets c).calls =
      c.calls ++ targets.map fun q => ⟨.measure q (.default q.index), condition⟩ := by
  have hpath : ¬(([] : List Value).isEmpty && condition.isNone &&
      sameElements targets c.qubits) = true := by
    intro hall
    obtain ⟨⟨-, hnone⟩, hsame⟩ : (([] : List Value).isEmpty = true ∧ condition.isNone = true) ∧
      sameElements targets c.qubits = true := by simpa using hall
    rcases hown with hsome | hleft
    · exact hsome (by simpa using hnone)
    · exact hleft (sameElements_iff.mp hsame).2
  unfold measureQubits
  rw [if_neg hpath]
  exact foldl_measureOne_of_paired h htargets

/-- A measurement without argument brings in its targets and measures them. -/
theorem moveCall_measure {p : Progress} {origin : Origin} {targets : Targets} {name : String}
    (hname : name = "M" ∨ name = "MEASURE") (hbits : targets.bits = []) :
    moveCall p origin targets ⟨name, []⟩ =
      .opens (p.onMain fun c =>
        if targets.qubits = [] then c
        else measureQubits [] origin.condition targets.qubits (c.ensureQubits targets.qubits))
      [] := by
  have hlookup : qubitRules.lookup name = some .measure := by
    rcases hname with rfl | rfl <;> decide
  by_cases hnil : targets.qubits = []
  · simp [moveCall, prepare, resolveArgs, findRule, hbits, hnil, Prepared.run, Progress.onMain,
      Move.ofOutcome]
  · have hempty : targets.qubits.isEmpty = false := by simpa using hnil
    simp [moveCall, prepare, resolveArgs, findRule, hbits, hnil, hempty, hlookup, Prepared.run,
      QubitRule.run, Lower.onMain, Progress.onMain, Move.ofOutcome]

end Measuring

/-- After every step of a program, hence after every gate call and every node and wherever lowering
fails, each qubit of the main circuit has the bit of its index. So where qubits are measured one by
one without an argument, each outcome goes to the bit of its index, and apart from the targets that
were absent nothing is added: the bits are those that the targets brought in. -/
theorem default_bits_present (nodes : List Node) :
    (∀ n, (step^[n] (start nodes)).main.Paired) ∧
    (lower nodes).Ensures (fun cs => cs.main.Paired) ∧
    ∀ n p origin targets name todo,
      step^[n] (start nodes) = working p (.part origin targets (.gate ⟨name, []⟩) :: todo) →
      name = "M" ∨ name = "MEASURE" → targets.bits = [] →
      origin.condition ≠ none ∨
        ¬(p.circuits.main.ensureQubits targets.qubits).qubits ⊆ targets.qubits →
      (step^[n + 1] (start nodes)).main.bits =
        (p.circuits.main.ensureQubits targets.qubits).bits ∧
      (step^[n + 1] (start nodes)).main.calls =
        (p.circuits.main.ensureQubits targets.qubits).calls ++
          targets.qubits.map fun q => ⟨.measure q (.default q.index), origin.condition⟩ := by
  refine ⟨paired_iterate nodes, ?_, ?_⟩
  · refine (lower_halts nodes).mono ?_
    rintro cs ⟨n, -, hcircuits⟩
    obtain ⟨hmain, -⟩ := List.cons.inj hcircuits
    rw [← hmain]
    exact paired_iterate nodes n
  · intro n p origin targets name todo hn hname hbits hown
    have hpaired : (p.circuits.main.ensureQubits targets.qubits).Paired := by
      have h := paired_iterate nodes n
      rw [hn] at h
      exact paired_persistent.ensureQubits targets.qubits h
    rw [Function.iterate_succ_apply', hn, step, Task.move, moveCall_measure hname hbits]
    dsimp only [Config.main, progress, Progress.onMain]
    split
    · rename_i hnil
      simp [hnil, ensureQubits]
    · exact measureQubits_of_paired hpaired (fun q hq => mem_ensureQubits _ hq) hown

/-- A program that measures one of two qubits, the other being there already. -/
def halfMeasured : List Node :=
  [.action (.index 0) none (.parts [.gate ⟨"H", []⟩]),
    .action (.index 3) none (.parts [.gate ⟨"M", []⟩])]

theorem default_bits_present_half :
    (step^[4] (start halfMeasured)).main.bits = [.default 0, .default 3] ∧
    (step^[4] (start halfMeasured)).main.calls.getLast? =
      some ⟨.measure (.default 3) (.default 3), none⟩ := by
  obtain ⟨hbits, hcalls⟩ := (default_bits_present halfMeasured).2.2 3
    (step^[3] (start halfMeasured)).progress .unconditional ⟨[.default 3], []⟩ "M" []
    (by decide) (.inl rfl) rfl (.inr (by decide))
  constructor
  · rw [hbits]
    decide
  · rw [hcalls]
    decide

end Lower

end GateScript
