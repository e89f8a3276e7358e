import GateScript.Proofs.Lower.Operands
import GateScript.Proofs.Lower.Record

/-! What a gate call enters into a circuit, rule by rule. Boxes are left to the caller. -/
namespace GateScript

namespace Circuit

/-- The bit of a condition is present. -/
def HasCondition (c : Circuit) (condition : Option Condition) : Prop :=
  ∀ x ∈ condition, x.bit ∈ c.bits

theorem HasCondition.none (c : Circuit) : c.HasCondition none := by simp [HasCondition]

theorem HasCondition.mono {c c' : Circuit} {condition : Option Condition}
    (h : c.HasCondition condition) (hc : c.Extends c') : c'.HasCondition condition :=
  fun x hx => hc.bits (h x hx)

end Circuit

namespace Lower

open Program Outcome Circuit

/-- Units may be added, and operations on qubits may be entered under a condition. -/
structure PermitsQuantum (allowed : Call → Prop) (condition : Option Condition) : Prop where
  addQubit : ∀ q, allowed ⟨.addQubit q, none⟩
  addBit : ∀ b, allowed ⟨.addBit b, none⟩
  operation : ∀ operation, operation.IsQuantum → allowed ⟨operation, condition⟩

/-- Bits may be added, and operations on bits may be entered. -/
structure PermitsClassical (allowed : Call → Prop) : Prop where
  addBit : ∀ b, allowed ⟨.addBit b, none⟩
  operation : ∀ operation, operation.IsClassical → allowed ⟨operation, none⟩

variable {allowed : Call → Prop} {condition : Option Condition}

theorem bits_of_condition {operation : Operation} {c : Circuit}
    (hb : ∀ b ∈ operation.bits, b ∈ c.bits) (hc : c.HasCondition condition) :
    ∀ b ∈ (Call.mk operation condition).bits, b ∈ c.bits := by
  intro b hmem
  rcases List.mem_append.mp hmem with hmem | hmem
  · exact hb b hmem
  · obtain ⟨x, hx, rfl⟩ : ∃ x ∈ condition, x.bit = b := by simpa using hmem
    exact hc x hx

theorem GateRule.mem_arrange {rule : GateRule} {target q : Qubit} {partners : List Qubit}
    (h : q ∈ rule.arrange target partners) : q = target ∨ q ∈ partners := by
  rcases List.mem_append.mp h with h | h
  · exact .inr (List.mem_of_mem_take h)
  · rcases List.mem_cons.mp h with h | h
    · exact .inl h
    · exact .inr (List.mem_of_mem_drop h)

theorem GateRule.apply_records (hp : PermitsQuantum allowed condition) (rule : GateRule)
    (angle : AngleReader) (args : List Value) {target : Qubit} {c : Circuit}
    (ht : target ∈ c.qubits) (hc : c.HasCondition condition) :
    (rule.apply angle args condition target c).Ensures (Records allowed c) := by
  have hens := records_ensureQubits hp.addBit hp.addQubit c
  refine rule.apply_ensures angle args condition target hens fun partners angles => ?_
  have hpartners := hens partners
  refine hpartners.trans (records_record (.inl trivial) (by simp) ?_ ?_ (hp.operation _ trivial))
  · intro q hq
    rcases GateRule.mem_arrange hq with rfl | hq
    · exact hpartners.extension.qubits ht
    · exact mem_ensureQubits c hq
  · exact bits_of_condition (by simp [Operation.bits]) (hc.mono hpartners.extension)

/-- Partners that are found are present afterwards, also if an angle is refused. -/
theorem GateRule.apply_partners {rule : GateRule} {args : List Value} {partners : List Qubit}
    (h : rule.readPartners args = .ok partners) (angle : AngleReader)
    (condition : Option Condition) (target : Qubit) (c : Circuit) :
    (rule.apply angle args condition target c).Ensures fun c' => ∀ q ∈ partners, q ∈ c'.qubits := by
  unfold GateRule.apply
  rw [h]
  dsimp only
  split
  · exact ensures_failed.mpr fun q hq => mem_ensureQubits c hq
  · exact ensures_done.mpr fun q hq => mem_ensureQubits c hq

example :
    runCall noBox [("x", .qubit (.default 2))] ⟨[.default 0], []⟩ none
        ⟨"CRX", [.name "x", .number (.int 1)]⟩ ⟨.blank 0, []⟩ =
      .failed .notAngle ⟨(Circuit.blank 0).ensureQubits [.default 0, .default 1], []⟩ := by
  decide

theorem measureOne_records (hp : PermitsQuantum allowed condition) (destination : Option Bit)
    {c : Circuit} {q : Qubit} (hq : q ∈ c.qubits) (hc : c.HasCondition condition) :
    Records allowed c (measureOne destination condition c q) := by
  have hens := records_ensureBit hp.addBit c (destination.getD (.default q.index))
  refine hens.trans (records_record (.inl trivial) (by simp) ?_ ?_ (hp.operation _ trivial))
  · intro x hx
    rw [List.mem_singleton.mp hx]
    exact hens.extension.qubits hq
  · refine bits_of_condition ?_ (hc.mono hens.extension)
    intro b hb
    rw [List.mem_singleton.mp hb]
    exact mem_ensureBit c _

theorem foldl_measureOne_records (hp : PermitsQuantum allowed condition) (destination : Option Bit)
    {targets : List Qubit} {c : Circuit} (ht : ∀ q ∈ targets, q ∈ c.qubits)
    (hc : c.HasCondition condition) :
    Records allowed c (targets.foldl (measureOne destination condition) c) := by
  induction targets generalizing c with
  | nil => exact .refl
  | cons q targets ih =>
    have hq := measureOne_records hp destination (ht q List.mem_cons_self) hc
    refine hq.trans (ih ?_ (hc.mono hq.extension))
    exact fun x hx => hq.extension.qubits (ht x (List.mem_cons_of_mem q hx))

theorem measureQubits_records (hp : PermitsQuantum allowed condition) (args : List Value)
    {targets : List Qubit} {c : Circuit} (ht : ∀ q ∈ targets, q ∈ c.qubits)
    (hc : c.HasCondition condition) :
    Records allowed c (measureQubits args condition targets c) := by
  unfold measureQubits
  split
  · rename_i h
    obtain ⟨⟨-, hnone⟩, -⟩ : (args.isEmpty ∧ condition.isNone) ∧ sameElements targets c.qubits := by
      simpa using h
    have hnone : condition = none := by simpa using hnone
    subst hnone
    exact records_measureAll (hp.operation _ trivial)
  · exact foldl_measureOne_records hp _ ht hc

theorem placeBarrier_records (hp : PermitsQuantum allowed condition) {targets : List Qubit}
    {change : Circuit → Circuit} (h : placeBarrier condition targets = .ok change) {c : Circuit}
    (ht : ∀ q ∈ targets, q ∈ c.qubits) : Records allowed c (change c) := by
  unfold placeBarrier at h
  split at h
  · simp at h
  · rename_i hnone
    have hnone : condition = none := by simpa using hnone
    subst hnone
    cases h
    refine records_record (.inl trivial) (by simp) ht ?_ (hp.operation _ trivial)
    exact bits_of_condition (by simp [Operation.bits]) (.none c)

theorem addPhase_records (hp : PermitsQuantum allowed condition) {angle : AngleReader}
    {args : List Value} {change : Circuit → Circuit} (h : addPhase angle args condition = .ok change)
    (c : Circuit) :
    Records allowed c (change c) := by
  unfold addPhase at h
  split at h
  · simp at h
  · split at h
    · simp at h
    · rename_i v _ hnone
      have hnone : condition = none := by simpa using hnone
      subst hnone
      cases hv : angle v with
      | error e => simp [hv, Except.map] at h
      | ok phase =>
        simp only [hv, Except.map, Except.ok.injEq] at h
        subst h
        refine records_record (.inl trivial) (by simp) (by simp [Operation.qubits]) ?_
          (hp.operation _ trivial)
        exact bits_of_condition (by simp [Operation.bits]) (.none c)

/-- An operation on bits is entered after its operands are brought in. -/
theorem ensureBits_record_records (hp : PermitsClassical allowed) (operation : Operation)
    (hkind : operation.IsClassical) (bs : List Bit) (hbits : operation.bits ⊆ bs) (c : Circuit) :
    Records allowed c ((c.ensureBits bs).record operation none) := by
  have hqubits : operation.qubits = [] := by cases operation <;> first | rfl | exact hkind.elim
  refine (records_ensureBits hp.addBit c bs).trans
    (records_record (.inr (.inl hkind)) ?_ (by simp [hqubits]) ?_ (hp.operation _ hkind))
  · rintro rfl
    exact hkind
  · exact bits_of_condition (fun b hb => mem_ensureBits c (hbits hb)) (.none _)

theorem BitRule.apply_records (hp : PermitsClassical allowed) {rule : BitRule} {args : List Value}
    {target : Bit} {change : Circuit → Circuit} (h : rule.apply args target = .ok change)
    (c : Circuit) : Records allowed c (change c) := by
  unfold BitRule.apply at h
  split at h
  · cases h
    exact ensureBits_record_records hp (.bitNot target target) trivial [target]
      (by simp [Operation.bits]) c
  · rename_i source
    cases h
    exact ensureBits_record_records hp (.bitNot source target) trivial [source, target]
      (by simp [Operation.bits]) c
  · simp at h
  · simp at h
  · rename_i n
    split at h
    · cases h
      exact ensureBits_record_records hp (.bitSet (n = 1) target) trivial [target]
        (by simp [Operation.bits]) c
    · simp at h
  · simp at h
  · rename_i operator left right
    cases h
    exact ensureBits_record_records hp (.bitCombine operator left right target) trivial
      [left, right, target] (by simp [Operation.bits]) c
  · simp at h
  · rename_i source
    cases h
    exact ensureBits_record_records hp (.bitCopy source target) trivial [source, target]
      (by simp [Operation.bits]) c
  · simp at h

/-- The main circuit enters calls of some kind, and the boxes stay as they are. -/
structure Circuits.Keeps (allowed : Call → Prop) (cs cs' : Circuits) : Prop where
  main : Records allowed cs.main cs'.main
  boxes : cs'.boxes = cs.boxes

theorem Circuits.Keeps.refl (cs : Circuits) : cs.Keeps allowed cs := ⟨.refl, rfl⟩

theorem Circuits.Keeps.trans {cs₁ cs₂ cs₃ : Circuits} (h : cs₁.Keeps allowed cs₂)
    (h' : cs₂.Keeps allowed cs₃) : cs₁.Keeps allowed cs₃ :=
  ⟨h.main.trans h'.main, h'.boxes.trans h.boxes⟩

theorem onMain_keeps {step : Circuit → Outcome Circuit} {cs : Circuits}
    (h : (step cs.main).Ensures (Records allowed cs.main)) :
    (onMain step cs).Ensures (cs.Keeps allowed) := by
  unfold onMain
  rw [ensures_map]
  exact h.mono fun c hc => ⟨hc, rfl⟩

theorem GateRule.runEach_records (hp : PermitsQuantum allowed condition) (rule : GateRule)
    (args : List Value) {targets : List Qubit} {c : Circuit} (ht : ∀ q ∈ targets, q ∈ c.qubits)
    (hc : c.HasCondition condition) :
    (runEach (rule.apply numberAngle args condition) targets c).Ensures (Records allowed c) := by
  refine Ensures.runEach (fun q hq c' hc' => ?_) .refl
  have happly := rule.apply_records hp numberAngle args (hc'.extension.qubits (ht q hq))
    (hc.mono hc'.extension)
  exact happly.mono fun _ h => hc'.trans h

theorem BitRule.runEach_records (hp : PermitsClassical allowed) (rule : BitRule) (args : List Value)
    (targets : List Bit) (c : Circuit) :
    (runEach (fun b => .ofCheck (rule.apply args b)) targets c).Ensures (Records allowed c) := by
  refine Ensures.runEach (fun b _ c' hc' => ?_) .refl
  exact Ensures.ofCheck hc' fun change hchange => hc'.trans (BitRule.apply_records hp hchange c')

theorem QubitRule.run_keeps (hp : PermitsQuantum allowed condition) (rule : QubitRule)
    (args : List Value) {targets : List Qubit} {cs : Circuits}
    (ht : ∀ q ∈ targets, q ∈ cs.main.qubits) (hc : cs.main.HasCondition condition) :
    (rule.run noBox args condition targets cs).Ensures (cs.Keeps allowed) := by
  cases rule with
  | each rule => exact onMain_keeps (GateRule.runEach_records hp rule args ht hc)
  | measure =>
    change (onMain (fun c => done (measureQubits args condition targets c)) cs).Ensures _
    exact onMain_keeps (ensures_done.mpr (measureQubits_records hp args ht hc))
  | barrier => exact onMain_keeps (.ofCheck .refl fun _ h => placeBarrier_records hp h ht)
  | phase => exact onMain_keeps (.ofCheck .refl fun _ h => addPhase_records hp h _)
  | box =>
    simp only [QubitRule.run]
    cases boxBody args condition with
    | error e => exact ensures_failed.mpr (.refl cs)
    | ok body => exact ensures_done.mpr (.refl cs)

theorem ensureQubits_keeps (hp : PermitsQuantum allowed condition) (cs : Circuits)
    (qs : List Qubit) : cs.Keeps allowed { cs with main := cs.main.ensureQubits qs } :=
  ⟨records_ensureQubits hp.addBit hp.addQubit cs.main qs, rfl⟩

/-- What a gate call enters that has been checked. Operations on bits come without a condition. -/
theorem Prepared.run_keeps {p : Prepared} {targets : Targets} {cs : Circuits}
    (hq : p.qubitRule ≠ none → PermitsQuantum allowed condition)
    (hb : p.bitRule ≠ none → PermitsClassical allowed) (hc : cs.main.HasCondition condition) :
    (p.run noBox targets condition cs).Ensures (cs.Keeps allowed) := by
  obtain ⟨args, qubitRule, bitRule⟩ := p
  refine Ensures.andThen ?_ fun cs' hcs' => ?_
  · cases qubitRule with
    | none => exact ensures_done.mpr (.refl cs)
    | some rule =>
      have hp := hq (by simp)
      have hens := ensureQubits_keeps hp cs targets.qubits
      refine Ensures.mono (QubitRule.run_keeps hp rule args ?_ ?_) fun _ h => hens.trans h
      · exact fun q hmem => mem_ensureQubits cs.main hmem
      · exact hc.mono hens.main.extension
  · cases bitRule with
    | none => exact ensures_done.mpr hcs'
    | some rule =>
      have hrun := BitRule.runEach_records (hb (by simp)) rule args targets.bits cs'.main
      exact (onMain_keeps hrun).mono fun _ h => hcs'.trans h

theorem findRule_nil {α β : Type} {rules : List (String × α)} {name : String} {unknown : LowerError}
    {rule : Option α} (h : findRule rules name ([] : List β) unknown = .ok rule) : rule = none := by
  simpa [findRule] using h.symm

/-- A gate call that is found right has values for its arguments and rules for its targets. -/
theorem prepare_ok {scope : Scope} {targets : Targets} {call : GateCall} {p : Prepared}
    (h : prepare scope targets call = .ok p) :
    resolveArgs scope call.args = .ok p.args ∧
      findRule qubitRules call.name targets.qubits (.unknownGate call.name) = .ok p.qubitRule ∧
      findRule bitRules call.name targets.bits (.unknownBitOperation call.name) = .ok p.bitRule := by
  unfold prepare at h
  split at h
  · simp at h
  split at h
  · simp at h
  split at h
  · simp at h
  rename_i hargs _ _ hqubit _ _ hbit
  cases h
  exact ⟨hargs, hqubit, hbit⟩

/-- A rule is found only for a kind of unit that is among the targets. -/
theorem prepare_rules {scope : Scope} {targets : Targets} {call : GateCall} {p : Prepared}
    (h : prepare scope targets call = .ok p) :
    (p.qubitRule ≠ none → targets.qubits ≠ []) ∧ (p.bitRule ≠ none → targets.bits ≠ []) := by
  obtain ⟨-, hqubit, hbit⟩ := prepare_ok h
  constructor
  · intro hne hnil
    rw [hnil] at hqubit
    exact hne (findRule_nil hqubit)
  · intro hne hnil
    rw [hnil] at hbit
    exact hne (findRule_nil hbit)

/-- What a gate call enters, by the kinds of its targets. -/
theorem runCall_keeps {scope : Scope} {targets : Targets} {call : GateCall} {cs : Circuits}
    (hq : targets.qubits ≠ [] → PermitsQuantum allowed condition)
    (hb : targets.bits ≠ [] → PermitsClassical allowed) (hc : cs.main.HasCondition condition) :
    (runCall noBox scope targets condition call cs).Ensures (cs.Keeps allowed) := by
  unfold runCall
  cases h : prepare scope targets call with
  | error e => exact ensures_failed.mpr (.refl cs)
  | ok p =>
    obtain ⟨hqubits, hbits⟩ := prepare_rules h
    exact Prepared.run_keeps (fun hne => hq (hqubits hne)) (fun hne => hb (hbits hne)) hc

end Lower

end GateScript
