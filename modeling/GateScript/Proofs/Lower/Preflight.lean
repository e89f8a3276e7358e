import GateScript.Proofs.Lower.Contribution

/-!
Gate calls that are refused.

A gate call is checked before it touches the circuits, so a call that does not pass the checks
leaves them as they are. No name stands for a gate on qubits and for an operation on bits. Hence on
a qubit and a bit together every call is refused, and an action on both has no effect at all: it
fails at its first gate call, or comes to none.
-/
namespace GateScript.Lower

open Program Outcome

section Checks

/-- The reasons for which a gate call on some targets is refused. -/
inductive Refused (scope : Scope) (entities : List Entity) (call : GateCall) : LowerError → Prop
  | argument {x : String} (harg : .name x ∈ call.args) (hx : scope.find? x = none) :
    Refused scope entities call (.unknownName x)
  | gate {q : Qubit} (hq : .qubit q ∈ entities) (hname : qubitRules.lookup call.name = none) :
    Refused scope entities call (.unknownGate call.name)
  | operation {b : Bit} (hb : .bit b ∈ entities) (hname : bitRules.lookup call.name = none) :
    Refused scope entities call (.unknownBitOperation call.name)

variable {scope : Scope} {entities : List Entity} {call : GateCall} {e : LowerError}

theorem mem_qubits_ofEntities {q : Qubit} :
    q ∈ (Targets.ofEntities entities).qubits ↔ .qubit q ∈ entities := by
  simp only [Targets.ofEntities, List.mem_filterMap]
  constructor
  · rintro ⟨entity, hmem, hq⟩
    cases entity <;> simp [Entity.qubit?] at hq
    rwa [← hq]
  · exact fun h => ⟨.qubit q, h, rfl⟩

theorem mem_bits_ofEntities {b : Bit} :
    b ∈ (Targets.ofEntities entities).bits ↔ .bit b ∈ entities := by
  simp only [Targets.ofEntities, List.mem_filterMap]
  constructor
  · rintro ⟨entity, hmem, hb⟩
    cases entity <;> simp [Entity.bit?] at hb
    rwa [← hb]
  · exact fun h => ⟨.bit b, h, rfl⟩

theorem resolveArg_eq_error_iff {arg : Argument} :
    resolveArg scope arg = .error e ↔
      ∃ x, arg = .name x ∧ scope.find? x = none ∧ e = .unknownName x := by
  cases arg with
  | number n => simp [resolveArg]
  | name x => cases hx : scope.find? x <;> simp [resolveArg, hx, eq_comm]

theorem resolveArgs_error {args : List Argument} (h : resolveArgs scope args = .error e) :
    ∃ x, .name x ∈ args ∧ scope.find? x = none ∧ e = .unknownName x := by
  induction args with
  | nil => simp [resolveArgs] at h
  | cons arg args ih =>
    rw [resolveArgs_cons] at h
    cases hvalue : resolveArg scope arg with
    | error e' =>
      obtain rfl : e' = e := by simpa [hvalue] using h
      obtain ⟨x, rfl, hx, he⟩ := resolveArg_eq_error_iff.mp hvalue
      exact ⟨x, List.mem_cons_self, hx, he⟩
    | ok value =>
      cases hrest : resolveArgs scope args with
      | error e' =>
        obtain rfl : e' = e := by simpa [hvalue, hrest, Except.map] using h
        obtain ⟨x, harg, hx, he⟩ := ih hrest
        exact ⟨x, List.mem_cons_of_mem arg harg, hx, he⟩
      | ok values => simp [hvalue, hrest, Except.map] at h

theorem find?_of_resolveArgs {args : List Argument} {values : List Value}
    (h : resolveArgs scope args = .ok values) {x : String} (hx : .name x ∈ args) :
    scope.find? x ≠ none := by
  have hvalues := forall₂_of_resolveArgs h
  clear h
  induction hvalues with
  | nil => cases hx
  | @cons arg value args values hvalue _ ih =>
    obtain rfl | hx := List.mem_cons.mp hx
    · intro hfind
      rw [resolveArg_eq_error_iff.mpr ⟨x, rfl, hfind, rfl⟩] at hvalue
      cases hvalue
    · exact ih hx

theorem findRule_eq_error_iff {α β : Type} {rules : List (String × α)} {name : String}
    {targets : List β} {unknown : LowerError} :
    findRule rules name targets unknown = .error e ↔
      (∃ target, target ∈ targets) ∧ rules.lookup name = none ∧ e = unknown := by
  unfold findRule
  cases targets with
  | nil => simp
  | cons target targets => cases rules.lookup name <;> simp [eq_comm]

/-- Checking a gate call finds a reason to refuse it. -/
theorem refused_of_prepare (h : prepare scope (.ofEntities entities) call = .error e) :
    Refused scope entities call e := by
  unfold prepare at h
  split at h
  · rename_i e' hargs
    cases h
    obtain ⟨x, harg, hx, rfl⟩ := resolveArgs_error hargs
    exact .argument harg hx
  split at h
  · rename_i e' hrule
    cases h
    obtain ⟨⟨q, hq⟩, hname, rfl⟩ := findRule_eq_error_iff.mp hrule
    exact .gate (mem_qubits_ofEntities.mp hq) hname
  split at h
  · rename_i e' hrule
    cases h
    obtain ⟨⟨b, hb⟩, hname, rfl⟩ := findRule_eq_error_iff.mp hrule
    exact .operation (mem_bits_ofEntities.mp hb) hname
  · simp at h

/-- A gate call that there is a reason to refuse does not pass the checks. -/
theorem Refused.prepare_error (h : Refused scope entities call e) :
    ∃ e', prepare scope (.ofEntities entities) call = .error e' := by
  cases hprepare : prepare scope (.ofEntities entities) call with
  | error e' => exact ⟨e', rfl⟩
  | ok p =>
    obtain ⟨hargs, hqubit, hbit⟩ := prepare_ok hprepare
    cases h with
    | argument harg hx => exact absurd hx (find?_of_resolveArgs hargs harg)
    | gate hq hname =>
      rw [findRule_eq_error_iff.mpr ⟨⟨_, mem_qubits_ofEntities.mpr hq⟩, hname, rfl⟩] at hqubit
      cases hqubit
    | operation hb hname =>
      rw [findRule_eq_error_iff.mpr ⟨⟨_, mem_bits_ofEntities.mpr hb⟩, hname, rfl⟩] at hbit
      cases hbit

/-- A gate call that is refused leaves the circuits as they are. -/
theorem Refused.runCall_failed (h : Refused scope entities call e) (box : BoxMaker)
    (condition : Option Condition) (cs : Circuits) :
    ∃ e', Refused scope entities call e' ∧
      runCall box scope (.ofEntities entities) condition call cs = .failed e' cs := by
  obtain ⟨e', he'⟩ := h.prepare_error
  exact ⟨e', refused_of_prepare he', by rw [runCall, he']⟩

/-- No gate call is for qubits and bits at once. -/
theorem refused_of_mixed {q : Qubit} {b : Bit} (hq : .qubit q ∈ entities) (hb : .bit b ∈ entities)
    (scope : Scope) (call : GateCall) : ∃ e, Refused scope entities call e := by
  cases hname : qubitRules.lookup call.name with
  | none => exact ⟨_, .gate hq hname⟩
  | some rule => exact ⟨_, .operation hb (lookup_bitRules_eq_none hname)⟩

end Checks

section Passing

variable {scope : Scope} {target : Target} {count : Option Int} {instruction : Instruction}
  {cs cs' : Circuits} {entities : List Entity} {parts : List Part}

/-- An action runs its pipeline once for every round. -/
theorem runAction_eq_runPipeline (htarget : resolveTarget scope cs.main target = .ok entities)
    (hparts : resolveInstruction scope instruction = .ok parts) (count : Option Int) :
    runAction scope target count instruction cs =
      runPipeline scope (.ofEntities entities) none (List.replicate (rounds count) parts).flatten
        cs := by
  have hround : runPipeline scope (.ofEntities entities) none parts =
      runEach (runPart makeBox scope (.ofEntities entities) none) parts :=
    funext (runPipeline_eq_runEach _ none parts)
  simp only [runAction, htarget, hparts]
  rw [hround, runTimes_eq_runEach, runPipeline_eq_runEach]

/-- The circuits that an action passes: those that it comes to, also if it has no end, and those
that it leaves. -/
inductive Passes (scope : Scope) (target : Target) (count : Option Int) (instruction : Instruction)
    (cs : Circuits) : Circuits → Prop
  | comes {entities : List Entity} {parts rest : List Part} {depth : Nat} {cs' : Circuits}
      (htarget : resolveTarget scope cs.main target = .ok entities)
      (hparts : resolveInstruction scope instruction = .ok parts)
      (h : Comes makeBox scope (.ofEntities entities) none
        (List.replicate (rounds count) parts).flatten cs depth rest cs') :
    Passes scope target count instruction cs cs'
  | leaves {cs' : Circuits} (h : (runAction scope target count instruction cs).state? = some cs') :
    Passes scope target count instruction cs cs'

variable {box : BoxMaker} {targets : Targets} {condition : Option Condition} {P : Circuits → Prop}

theorem Comes.keeps (hbox : box.Regular)
    (h : ∀ call cs, P cs → (runCall box scope targets condition call cs).Ensures P)
    {rest : List Part} {depth : Nat}
    (hcomes : Comes box scope targets condition parts cs depth rest cs') (hcs : P cs) : P cs' := by
  induction hcomes with
  | here parts cs => exact hcs
  | @past part _ _ _ _ _ _ hpart _ ih =>
    have hkeeps := Ensures.runPipelineWith h [part] hcs
    rw [((executes_iff hbox).mp hpart).2, ensures_done] at hkeeps
    exact ih hkeeps
  | opens _ _ ih => exact ih hcs

/-- What every gate call keeps, an action keeps on all its way. -/
theorem Passes.keeps (hpasses : Passes scope target count instruction cs cs') (hcs : P cs)
    (h : ∀ entities, resolveTarget scope cs.main target = .ok entities → ∀ call cs₁, P cs₁ →
      (runCall makeBox scope (.ofEntities entities) none call cs₁).Ensures P) : P cs' := by
  cases hpasses with
  | comes htarget hparts hcomes => exact hcomes.keeps makeBox_regular (h _ htarget) hcs
  | leaves hleaves =>
    have hkeeps : (runAction scope target count instruction cs).Ensures P := by
      cases htarget : resolveTarget scope cs.main target with
      | error e =>
        simp only [runAction, htarget]
        exact ensures_failed.mpr hcs
      | ok entities =>
        cases hparts : resolveInstruction scope instruction with
        | error e =>
          simp only [runAction, htarget, hparts]
          exact ensures_failed.mpr hcs
        | ok parts =>
          rw [runAction_eq_runPipeline htarget hparts]
          exact Ensures.runPipelineWith (h entities htarget) _ hcs
    exact hkeeps cs' hleaves

end Passing

section Mixed

variable {scope : Scope} {target : Target} {count : Option Int} {instruction : Instruction}
  {cs cs' : Circuits} {entities : List Entity} {parts : List Part} {q : Qubit} {b : Bit}

theorem runCall_mixed (hq : .qubit q ∈ entities) (hb : .bit b ∈ entities) (box : BoxMaker)
    (scope : Scope) (condition : Option Condition) (call : GateCall) (cs : Circuits) :
    ∃ e, runCall box scope (.ofEntities entities) condition call cs = .failed e cs := by
  obtain ⟨e, hrefused⟩ := refused_of_mixed hq hb scope call
  obtain ⟨e', -, hrun⟩ := hrefused.runCall_failed box condition cs
  exact ⟨e', hrun⟩

/-- An action on a qubit and a bit passes nothing but the circuits that it found. -/
theorem Passes.eq_of_mixed (htarget : resolveTarget scope cs.main target = .ok entities)
    (hq : .qubit q ∈ entities) (hb : .bit b ∈ entities)
    (h : Passes scope target count instruction cs cs') : cs' = cs := by
  refine h.keeps (P := (· = cs)) rfl fun entities' htarget' call cs₁ hcs₁ => ?_
  obtain rfl : entities = entities' := by simpa [htarget] using htarget'
  obtain ⟨e, hrun⟩ := runCall_mixed hq hb makeBox scope none call cs₁
  rw [hrun]
  exact ensures_failed.mpr hcs₁

/-- On a qubit and a bit a pipeline is done only if it comes to no gate call. -/
theorem runPipeline_mixed_iff (hq : .qubit q ∈ entities) (hb : .bit b ∈ entities) :
    runPipeline scope (.ofEntities entities) none parts cs = .done cs ↔
      Comprises scope parts [] := by
  constructor
  · intro hdone
    have hexecutes : Executes makeBox scope (.ofEntities entities) none parts cs (.done cs) :=
      (executes_iff makeBox_regular).mpr ⟨by simp, hdone⟩
    obtain ⟨calls, hcalls⟩ := hexecutes.comprises
    cases calls with
    | nil => exact hcalls
    | cons call calls =>
      obtain ⟨e, hrun⟩ := runCall_mixed hq hb makeBox scope none call cs
      rw [hcalls.run_eq, runEach_cons, hrun] at hdone
      simp at hdone
  · intro hcalls
    rw [hcalls.run_eq]
    rfl

theorem runAction_mixed_iff (htarget : resolveTarget scope cs.main target = .ok entities)
    (hq : .qubit q ∈ entities) (hb : .bit b ∈ entities) :
    runAction scope target count instruction cs = .done cs ↔
      ∃ parts, resolveInstruction scope instruction = .ok parts ∧
        Comprises scope (List.replicate (rounds count) parts).flatten [] := by
  cases hparts : resolveInstruction scope instruction with
  | error e => simp [runAction, htarget, hparts]
  | ok parts =>
    rw [runAction_eq_runPipeline htarget hparts, runPipeline_mixed_iff hq hb]
    simp

/-- The calls that do not pass the checks are those that there is a reason to refuse. Such a call
fails for one of these reasons and leaves the circuits as they are. In particular an action on a
qubit and a bit never changes the circuits. It fails, or it has no end, or it is done, and it is
done exactly if all its rounds together come to no gate call. -/
theorem refused_intact (scope : Scope) (cs : Circuits) :
    (∀ entities call, (∃ e, prepare scope (.ofEntities entities) call = .error e) ↔
      ∃ e, Refused scope entities call e) ∧
    (∀ entities call e, Refused scope entities call e → ∀ box condition,
      ∃ e', Refused scope entities call e' ∧
        runCall box scope (.ofEntities entities) condition call cs = .failed e' cs) ∧
    ∀ target entities q b, resolveTarget scope cs.main target = .ok entities →
      .qubit q ∈ entities → .bit b ∈ entities → ∀ count instruction,
      (∀ cs', Passes scope target count instruction cs cs' → cs' = cs) ∧
      ((∃ e, runAction scope target count instruction cs = .failed e cs) ∨
        runAction scope target count instruction cs = .endless ∨
        runAction scope target count instruction cs = .done cs) ∧
      (runAction scope target count instruction cs = .done cs ↔
        ∃ parts, resolveInstruction scope instruction = .ok parts ∧
          Comprises scope (List.replicate (rounds count) parts).flatten []) := by
  refine ⟨fun entities call => ⟨fun ⟨e, h⟩ => ⟨e, refused_of_prepare h⟩,
      fun ⟨_, h⟩ => h.prepare_error⟩,
    fun entities call e h box condition => h.runCall_failed box condition cs,
    fun target entities q b htarget hq hb count instruction => ?_⟩
  have hpasses : ∀ cs', Passes scope target count instruction cs cs' → cs' = cs :=
    fun cs' h => h.eq_of_mixed htarget hq hb
  refine ⟨hpasses, ?_, runAction_mixed_iff htarget hq hb⟩
  cases hrun : runAction scope target count instruction cs with
  | done cs' =>
    obtain rfl := hpasses cs' (.leaves (by rw [hrun]; rfl))
    exact .inr (.inr rfl)
  | failed e cs' =>
    obtain rfl := hpasses cs' (.leaves (by rw [hrun]; rfl))
    exact .inl ⟨e, rfl⟩
  | endless => exact .inr (.inl rfl)

/-- A qubit, a bit, a pipeline without gate calls, and one with a gate call two names away. -/
def mixedScope : Scope :=
  [("q", .qubit (.default 0)), ("b", .bit (.default 0)), ("idle", .pipeline []),
    ("outer", .pipeline [.named ⟨"idle", false⟩, .named ⟨"inner", true⟩]),
    ("inner", .pipeline [.gate ⟨"FLIP", []⟩])]

theorem refused_intact_nested :
    (∃ e, Refused mixedScope [.qubit (.default 0)] ⟨"FLIP", []⟩ e ∧
      runCall makeBox mixedScope (.ofEntities [.qubit (.default 0)]) none ⟨"FLIP", []⟩
        ⟨.blank 1, []⟩ = .failed e ⟨.blank 1, []⟩) ∧
    (∃ e, runAction mixedScope (.list [.name "q", .name "b"]) (some 2) (.name "outer")
      ⟨.blank 1, []⟩ = .failed e ⟨.blank 1, []⟩) ∧
    runAction mixedScope (.list [.name "q", .name "b"]) (some 2) (.name "idle") ⟨.blank 1, []⟩ =
      .done ⟨.blank 1, []⟩ := by
  obtain ⟨-, hrefused, hmixed⟩ := refused_intact mixedScope ⟨.blank 1, []⟩
  have haction := hmixed (.list [.name "q", .name "b"]) [.qubit (.default 0), .bit (.default 0)]
    (.default 0) (.default 0) rfl (by simp) (by simp) (some 2)
  refine ⟨hrefused _ _ _ (.gate (q := .default 0) (by simp) (by decide)) makeBox none, ?_, ?_⟩
  · obtain ⟨-, hfailed | hendless | hdone, -⟩ := haction (.name "outer")
    · exact hfailed
    · exact absurd hendless (by decide)
    · exact absurd hdone (by decide)
  · exact (haction (.name "idle")).2.2.mpr ⟨[], rfl, .nil⟩

end Mixed

end GateScript.Lower
