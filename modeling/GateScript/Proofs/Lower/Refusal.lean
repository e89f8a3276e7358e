import GateScript.Proofs.Lower.Operands

/-!
Which errors a gate call can end with. A call whose arguments are numbers looks up no name, so it
may be refused for many reasons, but never for a name that is not declared.
-/
namespace GateScript.Lower

open Program Outcome

section Errors

variable {σ τ α : Type} {P : LowerError → Prop}

/-- Whatever error an outcome shows has a property. -/
def Outcome.FailsOnly (P : LowerError → Prop) (o : Outcome σ) : Prop := ∀ e s, o = failed e s → P e

/-- Whatever error a check gives has a property. -/
def RefusesOnly (P : LowerError → Prop) (check : Except LowerError α) : Prop :=
  ∀ e, check = .error e → P e

theorem Outcome.FailsOnly.done (s : σ) : (Outcome.done s).FailsOnly P := by
  intro e s' h
  simp at h

theorem Outcome.FailsOnly.failed {e : LowerError} (h : P e) (s : σ) :
    (Outcome.failed e s).FailsOnly P := by
  intro e' s' he
  cases he
  exact h

theorem Outcome.FailsOnly.map {o : Outcome σ} (h : o.FailsOnly P) (f : σ → τ) :
    (o.map f).FailsOnly P := by
  cases o with
  | done s => exact .done (f s)
  | failed e s => exact .failed (h e s rfl) (f s)
  | endless =>
    intro e t ht
    simp at ht

theorem Outcome.FailsOnly.andThen {o : Outcome σ} {next : σ → Outcome σ} (h : o.FailsOnly P)
    (hnext : ∀ s, (next s).FailsOnly P) : (o.andThen next).FailsOnly P := by
  cases o with
  | done s => exact hnext s
  | failed e s => exact h
  | endless => exact h

theorem Outcome.FailsOnly.runEach {step : α → σ → Outcome σ} {as : List α}
    (h : ∀ a ∈ as, ∀ s, (step a s).FailsOnly P) (s : σ) : (runEach step as s).FailsOnly P := by
  induction as generalizing s with
  | nil => exact .done s
  | cons a as ih =>
    apply Outcome.FailsOnly.andThen (h a List.mem_cons_self s)
    intro s'
    exact ih (fun b hb => h b (List.mem_cons_of_mem a hb)) s'

theorem Outcome.FailsOnly.ofCheck {check : Except LowerError (σ → σ)} (h : RefusesOnly P check)
    (s : σ) : (ofCheck check s).FailsOnly P := by
  cases check with
  | ok change => exact .done _
  | error e => exact .failed (h e rfl) s

theorem RefusesOnly.ok (a : α) : RefusesOnly P (.ok a) := by
  intro e he
  cases he

theorem RefusesOnly.error {e : LowerError} (h : P e) : RefusesOnly P (.error e : Except _ α) := by
  intro e' he
  cases he
  exact h

theorem RefusesOnly.mono {Q : LowerError → Prop} {check : Except LowerError α}
    (h : RefusesOnly P check) (hPQ : ∀ e, P e → Q e) : RefusesOnly Q check :=
  fun e he => hPQ e (h e he)

theorem RefusesOnly.map {β : Type} {check : Except LowerError α} (h : RefusesOnly P check)
    (f : α → β) : RefusesOnly P (check.map f) := by
  cases check with
  | error e => exact .error (h e rfl)
  | ok a => exact .ok (f a)

theorem RefusesOnly.bind {β : Type} {check : Except LowerError α} (h : RefusesOnly P check)
    {next : α → Except LowerError β} (hnext : ∀ a, RefusesOnly P (next a)) :
    RefusesOnly P (check.bind next) := by
  cases check with
  | error e => exact .error (h e rfl)
  | ok a => exact hnext a

end Errors

section Numbers

/-- Errors that are not about a name. -/
def LowerError.Nameless : LowerError → Prop
  | .unknownName _ => False
  | _ => True

/-- A gate call whose arguments are numbers. -/
def Numeric (call : GateCall) : Prop := ∀ arg ∈ call.args, ∃ n, arg = .number n

theorem resolveArgs_numbers (scope : Scope) {args : List Argument}
    (h : ∀ arg ∈ args, ∃ n, arg = .number n) :
    ∃ numbers : List Number, resolveArgs scope args = .ok (numbers.map .number) := by
  induction args with
  | nil => exact ⟨[], rfl⟩
  | cons arg args ih =>
    obtain ⟨n, rfl⟩ := h arg List.mem_cons_self
    obtain ⟨numbers, hnumbers⟩ := ih fun a ha => h a (List.mem_cons_of_mem _ ha)
    refine ⟨n :: numbers, ?_⟩
    rw [resolveArgs, hnumbers]
    rfl

/-- Errors about an argument that is missing or of the wrong kind. -/
def LowerError.OfOperand : LowerError → Prop
  | .missingArgument | .notQubit | .negativeIndex _ | .notAngle => True
  | _ => False

theorem LowerError.OfOperand.nameless {e : LowerError} (h : e.OfOperand) : e.Nameless := by
  cases e with
  | unknownName name => exact h
  | _ => trivial

theorem takeValues_ofOperand {α : Type} {read : Value → Except LowerError α}
    (hread : ∀ v, RefusesOnly LowerError.OfOperand (read v)) (n : Nat) (vs : List Value) :
    RefusesOnly LowerError.OfOperand (takeValues read n vs) := by
  induction n generalizing vs with
  | zero => exact .ok []
  | succ n ih =>
    cases vs with
    | nil => exact .error trivial
    | cons v vs =>
      rw [takeValues]
      split
      · rename_i e he
        exact .error (hread v e he)
      · split
        · rename_i e he
          exact .error (ih vs e he)
        · exact .ok _

theorem qubit_ofOperand (v : Value) : RefusesOnly LowerError.OfOperand v.qubit := by
  unfold Value.qubit
  split
  · exact .ok _
  · split
    · exact .error trivial
    · exact .ok _
  · exact .error trivial

theorem angle_ofOperand (v : Value) : RefusesOnly LowerError.OfOperand (numberAngle v) := by
  cases v with
  | number n => exact .ok n
  | entity e => exact .error trivial

/-- Once their number is right, the arguments of a gate are refused only one by one. -/
theorem operands_ofOperand {rule : GateRule} {args : List Value}
    (hcheck : rule.arity.check args.length = .ok ()) :
    RefusesOnly LowerError.OfOperand (rule.operands args) := by
  have hpartners := takeValues_ofOperand qubit_ofOperand rule.partners (args.drop rule.angles)
  have hangles := takeValues_ofOperand angle_ofOperand rule.angles args
  unfold GateRule.operands GateRule.readPartners
  rw [hcheck]
  exact hpartners.bind fun partners => hangles.map _

theorem arity_nameless (a : Arity) (count : Nat) :
    RefusesOnly LowerError.Nameless (a.check count) := by
  unfold Arity.check
  split
  · exact .ok ()
  all_goals
    split
    · exact .ok ()
    · exact .error trivial

theorem apply_nameless (rule : GateRule) (args : List Value) (condition : Option Condition)
    (target : Qubit) (c : Circuit) :
    (rule.apply numberAngle args condition target c).FailsOnly LowerError.Nameless := by
  have hoperands : RefusesOnly LowerError.Nameless (rule.operands args) := by
    cases hcheck : rule.arity.check args.length with
    | error e =>
      rw [operands_of_check hcheck]
      exact .error (arity_nameless rule.arity args.length e hcheck)
    | ok _ => exact (operands_ofOperand hcheck).mono fun _ h => h.nameless
  cases h : rule.operands args with
  | error e =>
    rw [GateRule.apply_eq, h]
    exact .failed (hoperands e h) _
  | ok operands =>
    rw [GateRule.apply_eq, h]
    exact .done _

theorem placeBarrier_nameless (condition : Option Condition) (targets : List Qubit) :
    RefusesOnly LowerError.Nameless (placeBarrier condition targets) := by
  unfold placeBarrier
  split
  · exact .error trivial
  · exact .ok _

theorem addPhase_nameless (args : List Value) (condition : Option Condition) :
    RefusesOnly LowerError.Nameless (addPhase numberAngle args condition) := by
  unfold addPhase
  split
  · exact .error trivial
  · rename_i v _
    split
    · exact .error trivial
    · exact ((angle_ofOperand v).mono fun _ h => h.nameless).map _

/-- A number is no pipeline. -/
theorem boxBody_numbers (numbers : List Number) (condition : Option Condition) :
    ∃ e, boxBody (numbers.map .number) condition = .error e ∧ e.Nameless := by
  cases numbers with
  | nil => exact ⟨_, rfl, trivial⟩
  | cons n numbers => exact ⟨_, rfl, trivial⟩

theorem QubitRule.run_nameless (box : BoxMaker) (rule : QubitRule) (numbers : List Number)
    (condition : Option Condition) (targets : List Qubit) (cs : Circuits) :
    (rule.run box (numbers.map .number) condition targets cs).FailsOnly LowerError.Nameless := by
  cases rule with
  | each rule =>
    apply Outcome.FailsOnly.map
    apply Outcome.FailsOnly.runEach
    intro q _ c
    exact apply_nameless rule _ condition q c
  | measure => exact .done _
  | barrier => exact Outcome.FailsOnly.map (.ofCheck (placeBarrier_nameless condition targets) _) _
  | phase => exact Outcome.FailsOnly.map (.ofCheck (addPhase_nameless _ condition) _) _
  | box =>
    obtain ⟨e, hbody, he⟩ := boxBody_numbers numbers condition
    rw [QubitRule.run, hbody]
    exact .failed he cs

/-- A gate call on qubits whose arguments are numbers does not fail for a name. -/
theorem runCall_nameless (box : BoxMaker) (scope : Scope) (qubits : List Qubit)
    (condition : Option Condition) {call : GateCall} (h : Numeric call) (cs : Circuits) :
    (runCall box scope ⟨qubits, []⟩ condition call cs).FailsOnly LowerError.Nameless := by
  obtain ⟨numbers, hargs⟩ := resolveArgs_numbers scope h
  have hrule : RefusesOnly LowerError.Nameless
      (findRule qubitRules call.name qubits (.unknownGate call.name)) := by
    unfold findRule
    split
    · exact .ok none
    · split
      · exact .ok _
      · exact .error trivial
  have hbit : findRule bitRules call.name ([] : List Bit) (.unknownBitOperation call.name) =
      .ok none := rfl
  unfold runCall prepare
  rw [hargs]
  cases hfound : findRule qubitRules call.name qubits (.unknownGate call.name) with
  | error e =>
    exact .failed (hrule e hfound) cs
  | ok rule =>
    simp only [hbit, Prepared.run]
    cases rule with
    | none => exact .done cs
    | some rule =>
      rw [andThen_done_right]
      exact rule.run_nameless box numbers condition qubits _

end Numbers

end GateScript.Lower
