import GateScript.Compile
import GateScript.Proofs.Lower.Preflight

/-!
Gate calls with too few or too many arguments.

Every gate on one, two or three qubits has a number of parameters: its angles and its partners. Four
gates insist on it. Some ask for at least as many arguments, and the others do not ask. So arguments
that are missing are noticed in any case, if only when one of them is looked for; those that are too
many are noticed by the four gates alone, and for all the others they have no effect.
-/
namespace GateScript.Lower

open Program Outcome Circuit

section Parameters

def oneQubitGates : List (String × Nat) :=
  [("H", 0), ("X", 0), ("N", 0), ("Y", 0), ("Z", 0), ("S", 0), ("ST", 0), ("T", 0), ("TT", 0),
    ("SX", 0), ("SXDG", 0), ("V", 0), ("VDG", 0), ("RX", 1), ("RY", 1), ("RZ", 1), ("U1", 1),
    ("U2", 2), ("U3", 3), ("TK1", 3), ("PX", 2), ("PHASEDX", 2), ("RESET", 0), ("R", 0)]

def twoQubitGates : List (String × Nat) :=
  [("CX", 1), ("CNOT", 1), ("FCX", 1), ("FCNOT", 1), ("CY", 1), ("FCY", 1), ("CZ", 1), ("FCZ", 1),
    ("CH", 1), ("FCH", 1), ("CU1", 2), ("CRX", 2), ("CRY", 2), ("CRZ", 2), ("SWAP", 1), ("ECR", 1),
    ("ISWAP", 2), ("ISWAPMAX", 1), ("ZZMAX", 1), ("ZZPH", 2), ("XXPH", 2), ("YYPH", 2), ("FSIM", 3),
    ("TK2", 4), ("PHISWAP", 3)]

def threeQubitGates : List (String × Nat) :=
  [("CCX", 2), ("TOFFOLI", 2), ("CSWAP", 2), ("FREDKIN", 2), ("XXP3", 3)]

/-- The gates with the numbers of their parameters. -/
def parameterCounts : List (String × Nat) := oneQubitGates ++ twoQubitGates ++ threeQubitGates

/-- The gates that insist on the number of their arguments. -/
def exactGates : List String := ["U1", "U2", "U3", "TK1"]

/-- The gates that ask for as many arguments as they have parameters, or more. -/
def leastGates : List String :=
  ["PX", "PHASEDX", "CRX", "CRY", "CRZ", "ECR", "ISWAP", "ISWAPMAX", "ZZMAX", "ZZPH", "XXPH",
    "YYPH", "FSIM", "TK2", "PHISWAP", "CSWAP", "FREDKIN", "XXP3"]

/-- How a gate with `k` parameters checks the number of its arguments, by its name. -/
def Arity.GoesWith (name : String) (k : Nat) : Arity → Prop
  | .unchecked => name ∉ exactGates ∧ name ∉ leastGates
  | .exactly n _ => name ∈ exactGates ∧ n = k
  | .atLeast n _ => name ∈ leastGates ∧ name ∉ exactGates ∧ n = k

instance (name : String) (k : Nat) : (arity : Arity) → Decidable (arity.GoesWith name k)
  | .unchecked => inferInstanceAs (Decidable (name ∉ exactGates ∧ name ∉ leastGates))
  | .exactly n _ => inferInstanceAs (Decidable (name ∈ exactGates ∧ n = k))
  | .atLeast n _ => inferInstanceAs (Decidable (name ∈ leastGates ∧ name ∉ exactGates ∧ n = k))

/-- The rule is for single targets and has `k` parameters. -/
def QubitRule.Has (name : String) (k : Nat) : QubitRule → Prop
  | .each rule => rule.angles + rule.partners = k ∧ rule.arity.GoesWith name k
  | _ => False

instance (name : String) (k : Nat) : (rule : QubitRule) → Decidable (rule.Has name k)
  | .each rule =>
    inferInstanceAs (Decidable (rule.angles + rule.partners = k ∧ rule.arity.GoesWith name k))
  | .measure | .barrier | .phase | .box => inferInstanceAs (Decidable False)

theorem rule_of_parameters {name : String} {k : Nat} (h : (name, k) ∈ parameterCounts) :
    ∃ rule, qubitRules.lookup name = some (.each rule) ∧ rule.angles + rule.partners = k ∧
      rule.arity.GoesWith name k := by
  have hlisted : ∀ entry ∈ parameterCounts,
      (qubitRules.lookup entry.1).any fun rule => rule.Has entry.1 entry.2 := by decide
  have hhas := hlisted (name, k) h
  cases hrule : qubitRules.lookup name with
  | none => simp [hrule] at hhas
  | some rule =>
    have hhas : rule.Has name k := by simpa [hrule] using hhas
    cases rule with
    | each rule => exact ⟨rule, rfl, hhas⟩
    | _ => exact hhas.elim

theorem Arity.check_cases (arity : Arity) (n : Nat) :
    arity.check n = .ok () ∨ ∃ text, arity.check n = .error (.usage text) := by
  unfold Arity.check
  split
  · exact .inl rfl
  all_goals
    split
    · exact .inl rfl
    · exact .inr ⟨_, rfl⟩

variable {name : String} {k n : Nat} {arity : Arity}

theorem Arity.GoesWith.check_self (h : arity.GoesWith name k) : arity.check k = .ok () := by
  cases arity with
  | unchecked => rfl
  | exactly count usage => exact if_pos h.2.symm
  | atLeast count usage => exact if_pos h.2.2.le

/-- The gates that notice a wrong number of arguments. -/
theorem Arity.GoesWith.check_iff (h : arity.GoesWith name k) (hn : n ≠ k) :
    arity.check n = .ok () ↔ name ∉ exactGates ∧ (name ∈ leastGates → k < n) := by
  cases arity with
  | unchecked =>
    obtain ⟨hexact, hleast⟩ := h
    simp [Arity.check, hexact, hleast]
  | exactly count usage =>
    obtain ⟨hexact, rfl⟩ := h
    simp [Arity.check, hexact, hn]
  | atLeast count usage =>
    obtain ⟨hleast, hexact, rfl⟩ := h
    have hle : count ≤ n ↔ count < n := by omega
    simp [Arity.check, hexact, hleast, hle]

end Parameters

section Operands

variable {rule : GateRule} {args : List Value} {α : Type}

theorem takeValues_missing (read : Value → Except LowerError α) {n : Nat} {vs : List Value}
    (h : vs.length < n) : ∃ e, takeValues read n vs = .error e := by
  induction n generalizing vs with
  | zero => simp at h
  | succ n ih =>
    cases vs with
    | nil => exact ⟨_, rfl⟩
    | cons v vs =>
      rw [takeValues]
      cases read v with
      | error e => exact ⟨e, rfl⟩
      | ok a =>
        obtain ⟨e, he⟩ := ih (by simpa using h)
        exact ⟨e, by simp [he]⟩

/-- Without a check, arguments that are missing are noticed when they are looked for. -/
theorem operands_missing (hcheck : rule.arity.check args.length = .ok ())
    (h : args.length < rule.angles + rule.partners) :
    ∃ e, rule.operands args = .error e ∧ e.OfOperand := by
  cases hoperands : rule.operands args with
  | error e => exact ⟨e, rfl, operands_ofOperand hcheck e hoperands⟩
  | ok operands =>
    unfold GateRule.operands GateRule.readPartners at hoperands
    simp only [hcheck] at hoperands
    by_cases hangles : args.length < rule.angles
    · obtain ⟨e, he⟩ := takeValues_missing numberAngle hangles
      rw [he] at hoperands
      cases hpartners : takeValues Value.qubit rule.partners (args.drop rule.angles) <;>
        simp [hpartners, Except.bind, Except.map] at hoperands
    · have hlength : (args.drop rule.angles).length < rule.partners := by
        rw [List.length_drop]
        omega
      obtain ⟨e, he⟩ := takeValues_missing Value.qubit hlength
      simp [he, Except.bind] at hoperands

/-- Arguments beyond the parameters of a gate are not looked at. -/
theorem apply_take (hcheck : rule.arity.check args.length = .ok ())
    (hcheck' : rule.arity.check (rule.angles + rule.partners) = .ok ())
    (h : rule.angles + rule.partners ≤ args.length) :
    rule.apply numberAngle (args.take (rule.angles + rule.partners)) =
      rule.apply numberAngle args := by
  have hlength : (args.take (rule.angles + rule.partners)).length =
      rule.angles + rule.partners := by
    rw [List.length_take]
    omega
  have hpartners : rule.readPartners (args.take (rule.angles + rule.partners)) =
      rule.readPartners args := by
    unfold GateRule.readPartners
    rw [hlength, hcheck, hcheck', List.drop_take, Nat.add_sub_cancel_left, takeValues_take]
  have hangles : takeValues numberAngle rule.angles (args.take (rule.angles + rule.partners)) =
      takeValues numberAngle rule.angles args := by
    rw [← takeValues_take, List.take_take, Nat.min_eq_left (Nat.le_add_right _ _), takeValues_take]
  unfold GateRule.apply
  rw [hpartners, hangles]

end Operands

section Calls

/-- Errors that say how a gate, a bit or a condition is misused. The others come up where something
is missing or is not of the kind that it is taken for. -/
def LowerError.isMisuse : LowerError → Bool
  | .unknownName _ | .notPipeline _ | .instructionKind _ | .targetKind _ | .conditionalTargetKind _
  | .notQubit | .negativeIndex _ | .notAngle | .missingArgument => false
  | _ => true

theorem LowerError.OfOperand.isMisuse {e : LowerError} (h : e.OfOperand) : e.isMisuse = false := by
  cases e with
  | notQubit | negativeIndex | notAngle | missingArgument => rfl
  | _ => exact h.elim

/-- A gate call is refused as misused, and has no effect on the main circuit. -/
def Rejects (cs : Circuits) (o : Outcome Circuits) : Prop :=
  ∃ e cs', o = .failed e cs' ∧ e.isMisuse = true ∧ cs.main.Gains [] cs'.main

variable {name : String} {k : Nat} {rule : GateRule} {scope : Scope} {args : List Argument}
  {values : List Value} {entities : List Entity} {q : Qubit} {b : Bit}

/-- The names among the arguments are declared. -/
def Declared (scope : Scope) (args : List Argument) : Prop :=
  ∀ x, .name x ∈ args → scope.find? x ≠ none

theorem Declared.exists_resolveArgs (h : Declared scope args) :
    ∃ values, resolveArgs scope args = .ok values ∧ values.length = args.length := by
  cases hvalues : resolveArgs scope args with
  | ok values => exact ⟨values, rfl, (forall₂_of_resolveArgs hvalues).length_eq.symm⟩
  | error e =>
    obtain ⟨x, hx, hnone, -⟩ := resolveArgs_error hvalues
    exact absurd hnone (h x hx)

theorem qubits_ne_nil (h : .qubit q ∈ entities) : (Targets.ofEntities entities).qubits ≠ [] :=
  List.ne_nil_of_mem (mem_qubits_ofEntities.mpr h)

/-- A gate is not for bits. -/
theorem rejects_mixed (hrule : qubitRules.lookup name = some (.each rule)) (h : Declared scope args)
    (hb : .bit b ∈ entities) (box : BoxMaker) (condition : Option Condition) (cs : Circuits) :
    Rejects cs (runCall box scope (.ofEntities entities) condition ⟨name, args⟩ cs) := by
  have hoperation : Refused scope entities ⟨name, args⟩ (.unknownBitOperation name) :=
    .operation hb (lookup_bitRules_eq_none hrule)
  obtain ⟨e, he, hrun⟩ := hoperation.runCall_failed box condition cs
  refine ⟨e, cs, hrun, ?_, .refl _⟩
  cases he with
  | argument harg hx => exact absurd hx (h _ harg)
  | gate _ _ => rfl
  | operation _ _ => rfl

end Calls

section OnQubits

variable {name : String} {rule : GateRule} {scope : Scope} {args : List Argument}
  {values : List Value} {entities : List Entity} {q : Qubit}
  (hrule : qubitRules.lookup name = some (.each rule))
  (hvalues : resolveArgs scope args = .ok values) (hq : .qubit q ∈ entities)
  (hbits : ∀ b, .bit b ∉ entities) (box : BoxMaker) (condition : Option Condition) (cs : Circuits)

include hrule hvalues hq hbits

/-- Once its arguments are looked up, a call applies the gate to the qubits. -/
theorem runCall_each :
    runCall box scope (.ofEntities entities) condition ⟨name, args⟩ cs =
      (QubitRule.each rule).run box values condition (Targets.ofEntities entities).qubits
        { cs with main := cs.main.ensureQubits (Targets.ofEntities entities).qubits } := by
  have hnil : (Targets.ofEntities entities).bits = [] := by
    rw [List.eq_nil_iff_forall_not_mem]
    intro b hb
    exact hbits b (mem_bits_ofEntities.mp hb)
  have htargets : Targets.ofEntities entities = ⟨(Targets.ofEntities entities).qubits, []⟩ := by
    rw [← hnil]
  rw [htargets, runCall_qubits (qubits_ne_nil hq)]
  simp only [hvalues, hrule]

/-- A call whose operands are refused adds units at most. -/
theorem runCall_refused {e : LowerError} (h : rule.operands values = .error e) :
    ∃ cs', runCall box scope (.ofEntities entities) condition ⟨name, args⟩ cs = .failed e cs' ∧
      cs.main.Gains [] cs'.main := by
  rw [runCall_each hrule hvalues hq hbits, run_each_error h (qubits_ne_nil hq)]
  exact ⟨_, rfl, (gains_ensureQubits _ _).trans (gains_ensureQubits _ _)⟩

/-- A call is rejected just if the number of its arguments does not pass the check of the gate. -/
theorem rejects_iff_check :
    Rejects cs (runCall box scope (.ofEntities entities) condition ⟨name, args⟩ cs) ↔
      rule.arity.check values.length ≠ .ok () := by
  obtain hcheck | ⟨text, hcheck⟩ := rule.arity.check_cases values.length
  · apply iff_of_false _ (not_not_intro hcheck)
    rintro ⟨e, cs', hrun, hmisuse, -⟩
    cases hoperands : rule.operands values with
    | ok operands =>
      rw [runCall_each hrule hvalues hq hbits, run_each_ok hoperands] at hrun
      cases hrun
    | error e' =>
      obtain ⟨_, hfailed, -⟩ := runCall_refused hrule hvalues hq hbits box condition cs hoperands
      obtain ⟨rfl, -⟩ : e' = e ∧ _ := by simpa [hfailed] using hrun
      have hoperand := operands_ofOperand hcheck e' hoperands
      simp [hoperand.isMisuse] at hmisuse
  · obtain ⟨cs', hfailed, hgains⟩ :=
      runCall_refused hrule hvalues hq hbits box condition cs (operands_of_check hcheck)
    exact iff_of_true ⟨_, cs', hfailed, rfl, hgains⟩ (by simp [hcheck])

/-- Arguments that are missing are noticed. -/
theorem runCall_missing (hlength : values.length < rule.angles + rule.partners) :
    ∃ e cs', runCall box scope (.ofEntities entities) condition ⟨name, args⟩ cs = .failed e cs' ∧
      (e.isMisuse = true ∨ e.OfOperand) ∧ cs.main.Gains [] cs'.main := by
  have herror : ∃ e, rule.operands values = .error e ∧ (e.isMisuse = true ∨ e.OfOperand) := by
    obtain hcheck | ⟨text, hcheck⟩ := rule.arity.check_cases values.length
    · obtain ⟨e, he, hoperand⟩ := operands_missing hcheck hlength
      exact ⟨e, he, .inr hoperand⟩
    · exact ⟨.usage text, operands_of_check hcheck, .inl rfl⟩
  obtain ⟨e, he, hkind⟩ := herror
  obtain ⟨cs', hfailed, hgains⟩ := runCall_refused hrule hvalues hq hbits box condition cs he
  exact ⟨e, cs', hfailed, hkind, hgains⟩

end OnQubits

section Counts

variable {name : String} {k : Nat} {scope : Scope} {args : List Argument} {entities : List Entity}
  {q : Qubit}

/-- A gate call on a qubit with another number of arguments than the gate has parameters is rejected
exactly if there is a bit among its targets, or if the gate insists on the number, or asks for at
least as many and there are too few. With too few arguments the call fails in any case. With too
many it does what it does without the last ones, unless the gate insists. -/
theorem wrong_argument_count (hname : (name, k) ∈ parameterCounts) (hargs : Declared scope args)
    (hcount : args.length ≠ k) (hq : .qubit q ∈ entities) (box : BoxMaker)
    (condition : Option Condition) (cs : Circuits) :
    (Rejects cs (runCall box scope (.ofEntities entities) condition ⟨name, args⟩ cs) ↔
      (∃ b, .bit b ∈ entities) ∨ name ∈ exactGates ∨ name ∈ leastGates ∧ args.length < k) ∧
    (args.length < k → ∃ e cs',
      runCall box scope (.ofEntities entities) condition ⟨name, args⟩ cs = .failed e cs' ∧
        (e.isMisuse = true ∨ e.OfOperand) ∧ cs.main.Gains [] cs'.main) ∧
    ((∀ b, .bit b ∉ entities) → name ∉ exactGates → k < args.length →
      runCall box scope (.ofEntities entities) condition ⟨name, args⟩ cs =
        runCall box scope (.ofEntities entities) condition ⟨name, args.take k⟩ cs) := by
  obtain ⟨rule, hrule, rfl, harity⟩ := rule_of_parameters hname
  obtain ⟨values, hvalues, hlength⟩ := hargs.exists_resolveArgs
  rw [← hlength] at hcount ⊢
  by_cases hbit : ∃ b, .bit b ∈ entities
  · obtain ⟨b, hb⟩ := hbit
    have hrejects := rejects_mixed hrule hargs hb box condition cs
    refine ⟨iff_of_true hrejects (.inl ⟨b, hb⟩), ?_, fun hbits => absurd hb (hbits b)⟩
    obtain ⟨e, cs', hrun, hmisuse, hgains⟩ := hrejects
    exact fun _ => ⟨e, cs', hrun, .inl hmisuse, hgains⟩
  have hbits : ∀ b, .bit b ∉ entities := not_exists.mp hbit
  refine ⟨?_, fun hfew => runCall_missing hrule hvalues hq hbits box condition cs hfew, ?_⟩
  · rw [rejects_iff_check hrule hvalues hq hbits, Ne, harity.check_iff hcount]
    have horder : ¬rule.angles + rule.partners < values.length ↔
        values.length < rule.angles + rule.partners := by omega
    simp only [hbit, false_or, not_and_or, not_not, Classical.not_imp, horder]
  · intro _ hexact hmany
    have hcheck : rule.arity.check values.length = .ok () :=
      (harity.check_iff hcount).mpr ⟨hexact, fun _ => hmany⟩
    rw [runCall_each hrule hvalues hq hbits,
      runCall_each hrule (resolveArgs_take hvalues _) hq hbits]
    simp only [QubitRule.run, apply_take hcheck harity.check_self hmany.le]

def controlScope : Scope := [("control", .qubit (.default 1))]

/-- Two controls, where the gate takes one. -/
def twoControls : List Argument := [.name "control", .number (.int 2)]

/-- The second control is not looked at. -/
theorem wrong_argument_count_controls :
    let run args := runCall makeBox controlScope (.ofEntities [.qubit (.default 0)]) none
      ⟨"CX", args⟩ ⟨.blank 1, []⟩
    ¬Rejects ⟨.blank 1, []⟩ (run twoControls) ∧ run twoControls = run [.name "control"] := by
  have hname : ("CX", 1) ∈ parameterCounts := by decide
  have hdeclared : Declared controlScope twoControls := by
    intro x hx
    obtain rfl : x = "control" := by simpa [twoControls] using hx
    decide
  have hq : .qubit (.default 0) ∈ [Entity.qubit (.default 0)] := List.mem_singleton_self _
  have hbits : ∀ b, .bit b ∉ [Entity.qubit (.default 0)] := by simp
  have hfree : "CX" ∉ exactGates ∧ "CX" ∉ leastGates := by decide
  obtain ⟨hrejects, -, hmany⟩ :=
    wrong_argument_count hname hdeclared (by decide) hq makeBox none ⟨.blank 1, []⟩
  refine ⟨fun h => ?_, hmany hbits hfree.1 (by decide)⟩
  obtain ⟨b, hb⟩ | hexact | ⟨hleast, -⟩ := hrejects.mp h
  · exact hbits b hb
  · exact hfree.1 hexact
  · exact hfree.2 hleast

/-- A third angle, where the gate takes two, goes unnoticed: a half and a quarter are recorded. -/
theorem circuitsOfText_third_angle :
    circuitsOfText "0 -> PX(0.5, 0.25, 0.125)" =
      .ok (.done ⟨((Circuit.blank 0).ensureQubits [.default 0]).record
        (.gate .phasedX [.real ⟨0x3FE0000000000000⟩, .real ⟨0x3FD0000000000000⟩] [.default 0]) none,
        []⟩) := by
  decide +kernel

end Counts

end GateScript.Lower
