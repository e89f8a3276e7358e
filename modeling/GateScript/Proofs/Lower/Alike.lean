import GateScript.Proofs.Lower.Pipeline
import Mathlib.Data.Option.Basic
import Mathlib.Data.List.Forall2

/-!
Looking up names in two scopes.

Two scopes may give a name and its counterpart different lists and pipelines and still lead to the
same: a target is a unit or none, an argument of a gate counts by its kind, and the parts of a
pipeline count where it is run or boxed. So names that stand for alike entities are accepted and
refused alike, and gate calls with alike arguments do the same.
-/
namespace GateScript.Lower

open Program Outcome

section Errors

/-- Renames what an error says about names of the program. The names of gates are not renamed. -/
def LowerError.rename (r : String → String) : LowerError → LowerError
  | .unknownName name => .unknownName (r name)
  | .notPipeline name => .notPipeline (r name)
  | .unknownCondition name => .unknownCondition (r name)
  | .conditionKind name kind => .conditionKind (r name) kind
  | e => e

@[simp] theorem LowerError.rename_id (e : LowerError) : e.rename id = e := by cases e <;> rfl

def Outcome.mapError {σ : Type} (f : LowerError → LowerError) : Outcome σ → Outcome σ
  | done s => done s
  | failed e s => failed (f e) s
  | endless => endless

@[simp] theorem Outcome.mapError_done {σ : Type} (f : LowerError → LowerError) (s : σ) :
    (done s).mapError f = done s := rfl

@[simp] theorem Outcome.mapError_failed {σ : Type} (f : LowerError → LowerError) (e : LowerError)
    (s : σ) : (failed e s).mapError f = failed (f e) s := rfl

@[simp] theorem Outcome.mapError_endless {σ : Type} (f : LowerError → LowerError) :
    (endless : Outcome σ).mapError f = endless := rfl

theorem Outcome.mapError_rename_id {σ : Type} (o : Outcome σ) :
    o.mapError (LowerError.rename id) = o := by cases o <;> simp

variable {σ τ α : Type} {f : LowerError → LowerError}

theorem ofCheck_mapError (check : Except LowerError (σ → σ)) (s : σ) :
    Outcome.ofCheck (check.mapError f) s = (Outcome.ofCheck check s).mapError f := by
  cases check <;> rfl

theorem map_mapError (g : σ → τ) (o : Outcome σ) : (o.mapError f).map g = (o.map g).mapError f := by
  cases o <;> rfl

theorem andThen_mapError {next next' : σ → Outcome σ} (h : ∀ s, next' s = (next s).mapError f)
    (o : Outcome σ) : (o.mapError f).andThen next' = (o.andThen next).mapError f := by
  cases o with
  | done s => exact h s
  | failed e s => rfl
  | endless => rfl

theorem runEach_mapError {run run' : α → σ → Outcome σ}
    (h : ∀ a s, run' a s = (run a s).mapError f) (as : List α) (s : σ) :
    runEach run' as s = (runEach run as s).mapError f := by
  induction as generalizing s with
  | nil => rfl
  | cons a as ih => rw [runEach_cons, runEach_cons, h, andThen_mapError ih]

end Errors

/-- Entities that differ in the names of a list or in the parts of a pipeline at most. -/
inductive Entity.Alike (A : List Part → List Part → Prop) : Entity → Entity → Prop
  | qubit (q : Qubit) : Alike A (.qubit q) (.qubit q)
  | bit (b : Bit) : Alike A (.bit b) (.bit b)
  | list (names names' : List String) : Alike A (.list names) (.list names')
  | pipeline {parts parts' : List Part} (h : A parts parts') :
      Alike A (.pipeline parts) (.pipeline parts')

theorem Entity.Alike.mono {A B : List Part → List Part → Prop} {e e' : Entity} (h : Alike A e e')
    (hAB : ∀ parts parts', A parts parts' → B parts parts') : Alike B e e' := by
  cases h with
  | qubit q => exact .qubit q
  | bit b => exact .bit b
  | list names names' => exact .list names names'
  | pipeline h => exact .pipeline (hAB _ _ h)

/-- Entities that stand for the same unit, or both for none. -/
abbrev Entity.SameUnit : Entity → Entity → Prop := Alike fun _ _ => True

theorem Targets.ofEntities_sameUnit {es es' : List Entity}
    (h : List.Forall₂ Entity.SameUnit es es') : Targets.ofEntities es' = .ofEntities es := by
  unfold ofEntities
  congr 1
  · induction h with
    | nil => rfl
    | cons he _ ih => cases he <;> simp only [List.filterMap_cons, Entity.qubit?, ih]
  · induction h with
    | nil => rfl
    | cons he _ ih => cases he <;> simp only [List.filterMap_cons, Entity.bit?, ih]

/-- Values that differ in the names of a list or in the parts of a pipeline at most. -/
inductive Value.Alike (A : List Part → List Part → Prop) : Value → Value → Prop
  | number (n : Number) : Alike A (.number n) (.number n)
  | entity {e e' : Entity} (h : e.Alike A e') : Alike A (.entity e) (.entity e')

/-- Gate calls that have been checked, with the same rules. -/
structure Prepared.Alike (V : List Value → List Value → Prop) (a a' : Prepared) : Prop where
  args : V a.args a'.args
  qubitRule : a'.qubitRule = a.qubitRule
  bitRule : a'.bitRule = a.bitRule

section Checks

variable (r : String → String)

/-- Checks that both succeed alike, or fail alike. -/
inductive Checks {α : Type} (A : α → α → Prop) :
    Except LowerError α → Except LowerError α → Prop
  | ok {a a' : α} (h : A a a') : Checks A (.ok a) (.ok a')
  | error (e : LowerError) : Checks A (.error e) (.error (e.rename r))

/-- A name and its counterpart stand for entities that are alike, or for nothing. -/
structure Found (A : List Part → List Part → Prop) (scope scope' : Scope) (x x' : String) :
    Prop where
  name : x' = r x
  entity : Option.Rel (Entity.Alike A) (scope.find? x) (scope'.find? x')

/-- Arguments that stand for alike values. -/
inductive Arguments (A : List Part → List Part → Prop) (scope scope' : Scope) :
    Argument → Argument → Prop
  | number (n : Number) : Arguments A scope scope' (.number n) (.number n)
  | name {x x' : String} (h : Found r A scope scope' x x') :
      Arguments A scope scope' (.name x) (.name x')

end Checks

section Lookups

variable {r : String → String} {A : List Part → List Part → Prop} {scope scope' : Scope}

theorem Checks.imp {α : Type} {A B : α → α → Prop} {x x' : Except LowerError α}
    (h : Checks r A x x') (hAB : ∀ a a', x = .ok a → x' = .ok a' → A a a' → B a a') :
    Checks r B x x' := by
  cases h with
  | ok h => exact .ok (hAB _ _ rfl rfl h)
  | error e => exact .error e

theorem Checks.map {α β : Type} {A : α → α → Prop} {B : β → β → Prop} {f f' : α → β}
    {x x' : Except LowerError α} (h : Checks r A x x') (hf : ∀ a a', A a a' → B (f a) (f' a')) :
    Checks r B (x.map f) (x'.map f') := by
  cases h with
  | ok h => exact .ok (hf _ _ h)
  | error e => exact .error e

theorem Found.imp {B : List Part → List Part → Prop} {x x' : String}
    (h : Found r A scope scope' x x') (hAB : ∀ parts parts', A parts parts' → B parts parts') :
    Found r B scope scope' x x' := by
  obtain ⟨hname, hentity⟩ := h
  refine ⟨hname, ?_⟩
  generalize scope.find? x = found at hentity
  generalize scope'.find? x' = found' at hentity
  cases hentity with
  | none => exact .none
  | some hentity => exact .some (hentity.mono hAB)

/-- Looks up one argument. -/
def resolveArg (scope : Scope) : Argument → Except LowerError Value
  | .number n => .ok (.number n)
  | .name x =>
    match scope.find? x with
    | none => .error (.unknownName x)
    | some e => .ok (.entity e)

theorem resolveArgs_cons (scope : Scope) (arg : Argument) (args : List Argument) :
    resolveArgs scope (arg :: args) =
      match resolveArg scope arg with
      | .error e => .error e
      | .ok v => (resolveArgs scope args).map (v :: ·) := by
  cases arg with
  | number n => rfl
  | name x =>
    rw [resolveArgs, resolveArg]
    cases scope.find? x <;> rfl

theorem resolveArgs_take {args : List Argument} {vs : List Value}
    (h : resolveArgs scope args = .ok vs) (k : Nat) :
    resolveArgs scope (args.take k) = .ok (vs.take k) := by
  induction args generalizing vs k with
  | nil =>
    cases h
    simp [resolveArgs]
  | cons arg args ih =>
    cases k with
    | zero => rfl
    | succ k =>
      rw [resolveArgs_cons] at h
      rw [List.take_succ_cons, resolveArgs_cons]
      cases harg : resolveArg scope arg with
      | error e => simp [harg] at h
      | ok v =>
        rw [harg] at h
        cases hargs : resolveArgs scope args with
        | error e => simp [hargs, Except.map] at h
        | ok vs' =>
          simp only [hargs, Except.map, Except.ok.injEq] at h
          subst h
          simp only [ih hargs k, Except.map, List.take_succ_cons]

theorem resolveArgs_checks {V : Value → Value → Prop} {args args' : List Argument}
    (h : List.Forall₂ (fun a a' => Checks r V (resolveArg scope a) (resolveArg scope' a'))
      args args') :
    Checks r (List.Forall₂ V) (resolveArgs scope args) (resolveArgs scope' args') := by
  induction h with
  | nil => exact .ok .nil
  | @cons arg arg' args args' harg _ ih =>
    rw [resolveArgs_cons, resolveArgs_cons]
    generalize resolveArg scope arg = checked at harg
    generalize resolveArg scope' arg' = checked' at harg
    cases harg with
    | ok hv => exact ih.map fun _ _ hrest => .cons hv hrest
    | error e => exact .error e

theorem Arguments.checks {arg arg' : Argument} (h : Arguments r A scope scope' arg arg') :
    Checks r (Value.Alike A) (resolveArg scope arg) (resolveArg scope' arg') := by
  cases h with
  | number n => exact .ok (.number n)
  | @name x x' hfound =>
    obtain ⟨rfl, hentity⟩ := hfound
    rw [resolveArg, resolveArg]
    generalize scope.find? x = found at hentity
    generalize scope'.find? (r x) = found' at hentity
    cases hentity with
    | none => exact .error (.unknownName x)
    | some hentity => exact .ok (.entity hentity)

theorem resolveItem_name {x x' : String} (h : Found r (fun _ _ => True) scope scope' x x') :
    Checks r Entity.SameUnit (resolveItem scope (.name x)) (resolveItem scope' (.name x')) := by
  obtain ⟨rfl, hentity⟩ := h
  rw [resolveItem, resolveItem]
  generalize scope.find? x = found at hentity
  generalize scope'.find? (r x) = found' at hentity
  cases hentity with
  | none => exact .error (.unknownName x)
  | some hentity => exact .ok hentity

/-- An item that is no name is looked up without the scope. -/
theorem resolveItem_other {item : TargetItem} (h : ∀ x, item ≠ .name x) :
    Checks r Entity.SameUnit (resolveItem scope item) (resolveItem scope' item) := by
  cases item with
  | name x => exact absurd rfl (h x)
  | number n =>
    cases n with
    | int n =>
      rw [resolveItem, resolveItem]
      split
      · exact .error (.negativeIndex n)
      · exact .ok (.qubit _)
    | real x => exact .error (.targetKind _)
  | qubit q => exact .ok (.qubit q)
  | bit b => exact .ok (.bit b)
  | nothing => exact .error (.targetKind _)
  | list => exact .error (.targetKind _)

theorem resolveItems_alike {items items' : List TargetItem}
    (h : List.Forall₂ (fun i i' => Checks r Entity.SameUnit (resolveItem scope i)
      (resolveItem scope' i')) items items') :
    Checks r (List.Forall₂ Entity.SameUnit) (resolveItems scope items)
      (resolveItems scope' items') := by
  induction h with
  | nil => exact .ok .nil
  | @cons item item' items items' hitem _ ih =>
    rw [resolveItems, resolveItems]
    generalize resolveItem scope item = checked at hitem
    generalize resolveItem scope' item' = checked' at hitem
    cases hitem with
    | ok hentity => exact ih.map fun _ _ hrest => .cons hentity hrest
    | error e => exact .error e

theorem resolveInstruction_name {x x' : String} (h : Found r A scope scope' x x') :
    Checks r A (resolveInstruction scope (.name x)) (resolveInstruction scope' (.name x')) := by
  obtain ⟨rfl, hentity⟩ := h
  rw [resolveInstruction, resolveInstruction]
  generalize scope.find? x = found at hentity
  generalize scope'.find? (r x) = found' at hentity
  cases hentity with
  | none => exact .error (.unknownName x)
  | some hentity =>
    cases hentity with
    | pipeline hparts => exact .ok hparts
    | qubit q => exact .error (.instructionKind _)
    | bit b => exact .error (.instructionKind _)
    | list names names' => exact .error (.instructionKind _)

theorem resolveCondition_alike {x x' : String} (h : Found r A scope scope' x x') :
    Checks r Eq (resolveCondition scope x) (resolveCondition scope' x') := by
  obtain ⟨rfl, hentity⟩ := h
  rw [resolveCondition, resolveCondition]
  generalize scope.find? x = found at hentity
  generalize scope'.find? (r x) = found' at hentity
  cases hentity with
  | none => exact .error (.unknownCondition x)
  | some hentity =>
    cases hentity with
    | bit b => exact .ok rfl
    | qubit q => exact .error (.conditionKind x _)
    | list names names' => exact .error (.conditionKind x _)
    | pipeline hparts => exact .error (.conditionKind x _)

theorem findRule_cases {α β : Type} (rules : List (String × α)) (name : String) (targets : List β)
    (unknown : LowerError) :
    (∃ rule, findRule rules name targets unknown = .ok rule) ∨
      findRule rules name targets unknown = .error unknown := by
  unfold findRule
  split
  · exact .inl ⟨none, rfl⟩
  · split
    · exact .inl ⟨_, rfl⟩
    · exact .inr rfl

theorem prepare_checks {V : List Value → List Value → Prop} {call call' : GateCall}
    (targets : Targets) (hname : call'.name = call.name)
    (hargs : Checks r V (resolveArgs scope call.args) (resolveArgs scope' call'.args)) :
    Checks r (Prepared.Alike V) (prepare scope targets call) (prepare scope' targets call') := by
  unfold prepare
  rw [hname]
  generalize resolveArgs scope call.args = args at hargs
  generalize resolveArgs scope' call'.args = args' at hargs
  cases hargs with
  | error e => exact .error e
  | ok hargs =>
    dsimp only
    rcases findRule_cases qubitRules call.name targets.qubits (.unknownGate call.name) with
      ⟨qubitRule, hqubit⟩ | hunknown
    · rw [hqubit]
      dsimp only
      rcases findRule_cases bitRules call.name targets.bits (.unknownBitOperation call.name) with
        ⟨bitRule, hbit⟩ | hunknown
      · rw [hbit]
        exact .ok ⟨hargs, rfl, rfl⟩
      · rw [hunknown]
        exact .error (.unknownBitOperation call.name)
    · rw [hunknown]
      exact .error (.unknownGate call.name)

theorem prepare_alike {call call' : GateCall} (targets : Targets) (hname : call'.name = call.name)
    (h : List.Forall₂ (Arguments r A scope scope') call.args call'.args) :
    Checks r (Prepared.Alike (List.Forall₂ (Value.Alike A))) (prepare scope targets call)
      (prepare scope' targets call') :=
  prepare_checks targets hname (resolveArgs_checks (h.imp fun _ _ => Arguments.checks))

end Lookups

section Rules

variable (r : String → String) {A : List Part → List Part → Prop} {args args' : List Value}

theorem qubit_alike {v v' : Value} (h : v.Alike A v') :
    v'.qubit = v.qubit.mapError (LowerError.rename r) := by
  cases h with
  | number n =>
    cases n with
    | int n =>
      unfold Value.qubit
      dsimp only
      split <;> rfl
    | real x => rfl
  | entity he => cases he <;> rfl

theorem angle_alike {v v' : Value} (h : v.Alike A v') :
    numberAngle v' = (numberAngle v).mapError (LowerError.rename r) := by
  cases h with
  | number n => rfl
  | entity he => rfl

theorem bit?_alike {v v' : Value} (h : v.Alike A v') : v'.bit? = v.bit? := by
  cases h with
  | number n => rfl
  | entity he => cases he <;> rfl

theorem takeValues_take {α : Type} (read : Value → Except LowerError α) (k : Nat)
    (vs : List Value) : takeValues read k (vs.take k) = takeValues read k vs := by
  induction k generalizing vs with
  | zero => rfl
  | succ k ih =>
    cases vs with
    | nil => rfl
    | cons v vs => rw [List.take_succ_cons, takeValues, takeValues, ih]

theorem takeValues_mapError {α : Type} {read : Value → Except LowerError α}
    (h : List.Forall₂ (fun v v' => read v' = (read v).mapError (LowerError.rename r)) args args')
    (n : Nat) :
    takeValues read n args' = (takeValues read n args).mapError (LowerError.rename r) := by
  induction h generalizing n with
  | nil => cases n <;> rfl
  | @cons v v' args args' hv _ ih =>
    cases n with
    | zero => rfl
    | succ n =>
      rw [takeValues, takeValues, hv, ih n]
      cases read v with
      | error e => rfl
      | ok a => cases takeValues read n args <;> rfl

theorem arity_mapError (arity : Arity) (count : Nat) :
    arity.check count = (arity.check count).mapError (LowerError.rename r) := by
  unfold Arity.check
  split
  · rfl
  all_goals
    split <;> rfl

/-- A gate reads the same operands from two lists of arguments, or refuses both alike. -/
structure GateRule.ReadsAlike (rule : GateRule) (args args' : List Value) : Prop where
  partners : rule.readPartners args' = (rule.readPartners args).mapError (LowerError.rename r)
  angles : takeValues numberAngle rule.angles args' =
    (takeValues numberAngle rule.angles args).mapError (LowerError.rename r)

theorem readPartners_mapError (rule : GateRule) (hlength : args'.length = args.length)
    (h : takeValues Value.qubit rule.partners (args'.drop rule.angles) =
      (takeValues Value.qubit rule.partners (args.drop rule.angles)).mapError
        (LowerError.rename r)) :
    rule.readPartners args' = (rule.readPartners args).mapError (LowerError.rename r) := by
  unfold GateRule.readPartners
  rw [hlength, h]
  nth_rewrite 1 [arity_mapError r]
  cases rule.arity.check args.length <;> rfl

theorem readsAlike_alike (rule : GateRule) (h : List.Forall₂ (Value.Alike A) args args') :
    rule.ReadsAlike r args args' := by
  constructor
  · apply readPartners_mapError r rule h.length_eq.symm
    exact takeValues_mapError r ((List.forall₂_drop rule.angles h).imp fun _ _ => qubit_alike r) _
  · exact takeValues_mapError r (h.imp fun _ _ => angle_alike r) _

variable {r} in
theorem GateRule.ReadsAlike.apply {rule : GateRule} (h : rule.ReadsAlike r args args')
    (condition : Option Condition) (q : Qubit) (c : Circuit) :
    rule.apply numberAngle args' condition q c =
      (rule.apply numberAngle args condition q c).mapError (LowerError.rename r) := by
  unfold GateRule.apply
  rw [h.partners, h.angles]
  cases rule.readPartners args with
  | error e => rfl
  | ok partners => cases takeValues numberAngle rule.angles args <;> rfl

variable {r} in
theorem GateRule.ReadsAlike.run {rule : GateRule} (h : rule.ReadsAlike r args args')
    (condition : Option Condition) (targets : List Qubit) (cs : Circuits) :
    (QubitRule.each rule).run noBox args' condition targets cs =
      ((QubitRule.each rule).run noBox args condition targets cs).mapError
        (LowerError.rename r) := by
  simp only [QubitRule.run, onMain]
  rw [runEach_mapError (h.apply condition), map_mapError]

theorem measureQubits_alike (h : List.Forall₂ (Value.Alike A) args args')
    (condition : Option Condition) (targets : List Qubit) :
    measureQubits args' condition targets = measureQubits args condition targets := by
  funext c
  cases h with
  | nil => rfl
  | cons hv hrest => simp only [measureQubits, List.isEmpty_cons, List.head?_cons,
      Option.bind_some, bit?_alike hv]

theorem placeBarrier_mapError (condition : Option Condition) (targets : List Qubit) :
    placeBarrier condition targets =
      (placeBarrier condition targets).mapError (LowerError.rename r) := by
  unfold placeBarrier
  split <;> rfl

theorem addPhase_alike (h : List.Forall₂ (Value.Alike A) args args')
    (condition : Option Condition) :
    addPhase numberAngle args' condition =
      (addPhase numberAngle args condition).mapError (LowerError.rename r) := by
  cases h with
  | nil => rfl
  | @cons v v' _ _ hv hrest =>
    rw [addPhase, addPhase]
    split
    · rfl
    · rw [angle_alike r hv]
      cases numberAngle v <;> rfl

theorem boxBody_alike (h : List.Forall₂ (Value.Alike A) args args') (condition : Option Condition) :
    Checks r A (boxBody args condition) (boxBody args' condition) := by
  cases h with
  | nil => exact .error (.usage _)
  | cons hv hrest =>
    cases hv with
    | number n => exact .error (.boxKind _)
    | entity he =>
      cases he with
      | pipeline hparts =>
        rw [boxBody, boxBody]
        split
        · exact .error .boxConditional
        · exact .ok hparts
      | qubit q => exact .error (.boxKind _)
      | bit b => exact .error (.boxKind _)
      | list names names' => exact .error (.boxKind _)

theorem bitRule_alike (rule : BitRule) (h : List.Forall₂ (Value.Alike A) args args')
    (target : Bit) :
    rule.apply args' target = (rule.apply args target).mapError (LowerError.rename r) := by
  cases h with
  | nil => cases rule <;> rfl
  | cons hv hrest =>
    cases hrest with
    | nil =>
      cases hv with
      | number n =>
        cases rule <;> cases n <;> try rfl
        rw [BitRule.apply]
        split <;> rfl
      | entity he => cases rule <;> cases he <;> rfl
    | cons hw hrest =>
      cases hrest with
      | nil =>
        cases hv with
        | number n => cases rule <;> cases n <;> rfl
        | entity he =>
          cases hw with
          | number m => cases rule <;> cases he <;> rfl
          | entity he' => cases rule <;> cases he <;> cases he' <;> rfl
      | cons hx hrest =>
        cases rule <;> simp [BitRule.apply, Except.mapError, LowerError.rename]

theorem qubitRule_alike (rule : QubitRule) (h : List.Forall₂ (Value.Alike A) args args')
    (condition : Option Condition) (targets : List Qubit) (cs : Circuits) :
    rule.run noBox args' condition targets cs =
      (rule.run noBox args condition targets cs).mapError (LowerError.rename r) := by
  cases rule with
  | each rule => exact (readsAlike_alike r rule h).run condition targets cs
  | measure =>
    simp only [QubitRule.run, onMain, measureQubits_alike h]
    rfl
  | barrier =>
    simp only [QubitRule.run, onMain]
    rw [← map_mapError, ← ofCheck_mapError, ← placeBarrier_mapError r]
  | phase =>
    simp only [QubitRule.run, onMain]
    rw [addPhase_alike r h, ofCheck_mapError, map_mapError]
  | box =>
    have hbody := boxBody_alike r h condition
    simp only [QubitRule.run]
    generalize boxBody args condition = body at hbody
    generalize boxBody args' condition = body' at hbody
    cases hbody <;> rfl

theorem bitRun_alike (rule : BitRule) (h : List.Forall₂ (Value.Alike A) args args')
    (targets : List Bit) (cs : Circuits) :
    onMain (runEach (fun b => .ofCheck (rule.apply args' b)) targets) cs =
      (onMain (runEach (fun b => .ofCheck (rule.apply args b)) targets) cs).mapError
        (LowerError.rename r) := by
  have hcheck : ∀ b c, Outcome.ofCheck (rule.apply args' b) c =
      (Outcome.ofCheck (rule.apply args b) c).mapError (LowerError.rename r) := by
    intro b c
    rw [bitRule_alike r rule h b, ofCheck_mapError]
  unfold onMain
  rw [runEach_mapError hcheck, map_mapError]

theorem preparedRun_alike {a a' : Prepared}
    (h : a.Alike (List.Forall₂ (Value.Alike A)) a') (targets : Targets)
    (condition : Option Condition) (cs : Circuits) :
    a'.run noBox targets condition cs =
      (a.run noBox targets condition cs).mapError (LowerError.rename r) := by
  obtain ⟨args, _, _⟩ := a
  obtain ⟨args', qubitRule, bitRule⟩ := a'
  obtain ⟨hargs, rfl, rfl⟩ := h
  dsimp only at hargs ⊢
  cases qubitRule with
  | none =>
    cases bitRule with
    | none => rfl
    | some rule => exact bitRun_alike r rule hargs targets.bits cs
  | some rule =>
    have hqubits := qubitRule_alike r rule hargs condition targets.qubits
      { cs with main := cs.main.ensureQubits targets.qubits }
    simp only [Prepared.run]
    rw [hqubits]
    refine andThen_mapError (fun cs => ?_) _
    cases bitRule with
    | none => rfl
    | some rule => exact bitRun_alike r rule hargs targets.bits cs

end Rules

end GateScript.Lower
