import GateScript.Proofs.Lower.Operands
import Mathlib.Data.Finset.Prod
import Mathlib.Data.Finset.Card
import Mathlib.Data.Fintype.Defs

/-!
Running pipelines part by part.

Expansion bounds how many names may be open at once. Whether a call fails does not depend on the
circuits, so a pipeline that opens one name twice in the same direction has no end; below that the
bound is never reached. Hence a name can always be replaced by its parts.
-/
namespace GateScript.Lower

open Program Outcome

/-- The parts of a named pipeline in the order in which a reference to it runs them. -/
def oriented (r : Reference) (parts : List Part) : List Part :=
  if r.reversed then parts.reverse else parts

@[simp] theorem mem_oriented {r : Reference} {parts : List Part} {part : Part} :
    part ∈ oriented r parts ↔ part ∈ parts := by
  unfold oriented
  split <;> simp

/-- The parts of a pipeline, those of the pipelines that it refers to included. -/
inductive PartOf (scope : Scope) (parts : List Part) : Part → Prop
  | direct {part : Part} (h : part ∈ parts) : PartOf scope parts part
  | inner {r : Reference} {body : List Part} {part : Part} (outer : PartOf scope parts (.named r))
      (hr : scope.find? r.name = some (.pipeline body)) (h : part ∈ body) : PartOf scope parts part

/-- A part is a gate call, a reference to a pipeline, or a reference that leads nowhere. -/
@[elab_as_elim] theorem partCases (scope : Scope) {motive : Part → Prop} (part : Part)
    (gate : ∀ call, motive (.gate call))
    (pipeline : ∀ r parts, scope.find? r.name = some (.pipeline parts) → motive (.named r))
    (unresolved : ∀ r, (∀ parts, scope.find? r.name ≠ some (.pipeline parts)) → motive (.named r)) :
    motive part := by
  cases part with
  | gate call => exact gate call
  | named r =>
    by_cases hr : ∃ parts, scope.find? r.name = some (.pipeline parts)
    · obtain ⟨parts, hr⟩ := hr
      exact pipeline r parts hr
    · exact unresolved r (not_exists.mp hr)

section Parts

variable (box : BoxMaker) (scope : Scope) (targets : Targets) (condition : Option Condition)

/-- Runs what a pipeline was expanded to. -/
def Expansion.run (e : Expansion) (cs : Circuits) : Outcome Circuits :=
  (runEach (runCall box scope targets condition) e.calls cs).andThen fun cs =>
    match e.stop with
    | none => .done cs
    | some stop => stop.outcome cs

theorem run_expandEach (f : Part → Expansion) (ps : List Part) (cs : Circuits) :
    (expandEach f ps).run box scope targets condition cs =
      runEach (fun p => (f p).run box scope targets condition) ps cs := by
  induction ps generalizing cs with
  | nil => rfl
  | cons p ps ih =>
    rw [runEach_cons]
    rcases hf : f p with ⟨calls, stop⟩
    cases stop with
    | none =>
      simp only [expandEach, hf, Expansion.run, runEach_append, andThen_assoc, andThen_done]
      congr 1
      funext cs
      exact ih cs
    | some stop =>
      simp only [expandEach, hf, Expansion.run, andThen_assoc]
      congr 1
      funext cs
      cases stop <;> rfl

/-- Runs one part with at most `depth` names open at once. -/
def runPartWithin (depth : Nat) (p : Part) : Circuits → Outcome Circuits :=
  (expandPart scope depth p).run box scope targets condition

/-- Runs one part of a pipeline. -/
def runPart : Part → Circuits → Outcome Circuits :=
  runPartWithin box scope targets condition (2 * scope.length)

theorem runPipelineWith_eq_runEach (parts : List Part) (cs : Circuits) :
    runPipelineWith box scope targets condition parts cs =
      runEach (runPart box scope targets condition) parts cs :=
  run_expandEach box scope targets condition _ parts cs

variable {box scope targets condition}

theorem runPartWithin_gate (depth : Nat) (call : GateCall) :
    runPartWithin box scope targets condition depth (.gate call) =
      runCall box scope targets condition call := by
  funext cs
  cases depth <;> simp [runPartWithin, expandPart, Expansion.run]

theorem runPartWithin_zero {r : Reference} {parts : List Part}
    (h : scope.find? r.name = some (.pipeline parts)) :
    runPartWithin box scope targets condition 0 (.named r) = fun _ => endless := by
  funext cs
  simp [runPartWithin, expandPart, h, Expansion.run, Stop.outcome]

theorem runPartWithin_succ {r : Reference} {parts : List Part} (depth : Nat)
    (h : scope.find? r.name = some (.pipeline parts)) :
    runPartWithin box scope targets condition (depth + 1) (.named r) =
      runEach (runPartWithin box scope targets condition depth) (oriented r parts) := by
  funext cs
  simp only [runPartWithin, expandPart, h]
  exact run_expandEach box scope targets condition _ _ cs

/-- The error of a reference that names no pipeline. -/
def referenceError (scope : Scope) (r : Reference) : LowerError :=
  match scope.find? r.name with
  | none => .unknownName r.name
  | some _ => .notPipeline r.name

theorem runPartWithin_unresolved {r : Reference} (depth : Nat)
    (h : ∀ parts, scope.find? r.name ≠ some (.pipeline parts)) :
    runPartWithin box scope targets condition depth (.named r) =
      failed (referenceError scope r) := by
  funext cs
  cases hr : scope.find? r.name with
  | none => cases depth <;> simp [runPartWithin, expandPart, hr, Expansion.run, Stop.outcome,
      referenceError]
  | some entity =>
    cases entity with
    | pipeline parts => exact absurd hr (h parts)
    | _ => cases depth <;> simp [runPartWithin, expandPart, hr, Expansion.run, Stop.outcome,
        referenceError]

/-- More depth changes nothing once a part has been run to its end. -/
theorem runPartWithin_mono {depth : Nat} {p : Part} {cs : Circuits}
    (h : runPartWithin box scope targets condition depth p cs ≠ endless) :
    runPartWithin box scope targets condition (depth + 1) p cs =
      runPartWithin box scope targets condition depth p cs := by
  induction depth generalizing p cs with
  | zero =>
    cases p using partCases scope with
    | gate call => rw [runPartWithin_gate, runPartWithin_gate]
    | pipeline r parts hr => exact absurd (congrFun (runPartWithin_zero hr) cs) h
    | unresolved r hr => rw [runPartWithin_unresolved _ hr, runPartWithin_unresolved _ hr]
  | succ depth ih =>
    cases p using partCases scope with
    | gate call => rw [runPartWithin_gate, runPartWithin_gate]
    | pipeline r parts hr =>
      rw [runPartWithin_succ _ hr] at h ⊢
      rw [runPartWithin_succ _ hr]
      exact runEach_congr (fun _ _ => ih) h
    | unresolved r hr => rw [runPartWithin_unresolved _ hr, runPartWithin_unresolved _ hr]

end Parts

section Uniformity

theorem Uniform.onMain {step : Circuit → Outcome Circuit} (h : Uniform step) :
    Uniform (onMain step) := by
  intro cs cs'
  simp only [Lower.onMain, status_map]
  exact h _ _

variable {box : BoxMaker}

theorem Uniform.qubitRule (hbox : ∀ body qs, Uniform (box body qs)) (rule : QubitRule)
    (args : List Value) (condition : Option Condition) (targets : List Qubit) :
    Uniform (rule.run box args condition targets) := by
  cases rule with
  | each rule =>
    exact (Uniform.runEach (rule.apply_uniform numberAngle args condition) targets).onMain
  | measure =>
    have h : Uniform fun c => done (measureQubits args condition targets c) := fun _ _ => rfl
    exact h.onMain
  | barrier => exact (Uniform.ofCheck _).onMain
  | phase => exact (Uniform.ofCheck _).onMain
  | box =>
    intro cs cs'
    simp only [QubitRule.run]
    cases boxBody args condition with
    | error e => rfl
    | ok body => exact hbox body targets cs cs'

theorem Uniform.prepared (hbox : ∀ body qs, Uniform (box body qs)) (p : Prepared)
    (targets : Targets) (condition : Option Condition) :
    Uniform (p.run box targets condition) := by
  obtain ⟨args, qubitRule, bitRule⟩ := p
  apply Uniform.andThen
  · cases qubitRule with
    | none => exact fun _ _ => rfl
    | some rule => exact fun _ _ => Uniform.qubitRule hbox rule args condition targets.qubits _ _
  · cases bitRule with
    | none => exact fun _ _ => rfl
    | some rule => exact (Uniform.runEach (fun b => .ofCheck _) targets.bits).onMain

/-- Whether and how a call fails is settled by the call, its targets and the names in scope. -/
theorem Uniform.runCall (hbox : ∀ body qs, Uniform (box body qs)) (scope : Scope)
    (targets : Targets) (condition : Option Condition) (call : GateCall) :
    Uniform (runCall box scope targets condition call) := by
  unfold Lower.runCall
  cases prepare scope targets call with
  | error e => exact fun _ _ => rfl
  | ok p => exact Uniform.prepared hbox p targets condition

theorem Uniform.noBox (body : List Part) (qs : List Qubit) : Uniform (noBox body qs) :=
  fun _ _ => rfl

/-- The body of a box is run in a circuit of its own. -/
theorem Uniform.makeBox (body : List Part) (qs : List Qubit) : Uniform (makeBox body qs) := by
  unfold Lower.makeBox
  cases runBody body qs.length <;> exact fun _ _ => rfl

theorem Uniform.runPartWithin (hbox : ∀ body qs, Uniform (box body qs)) (scope : Scope)
    (targets : Targets) (condition : Option Condition) (depth : Nat) (p : Part) :
    Uniform (runPartWithin box scope targets condition depth p) := by
  induction depth generalizing p with
  | zero =>
    cases p using partCases scope with
    | gate call => rw [runPartWithin_gate]; exact .runCall hbox scope targets condition call
    | pipeline r parts hr => rw [runPartWithin_zero hr]; exact fun _ _ => rfl
    | unresolved r hr => rw [runPartWithin_unresolved _ hr]; exact fun _ _ => rfl
  | succ depth ih =>
    cases p using partCases scope with
    | gate call => rw [runPartWithin_gate]; exact .runCall hbox scope targets condition call
    | pipeline r parts hr => rw [runPartWithin_succ _ hr]; exact .runEach ih _
    | unresolved r hr => rw [runPartWithin_unresolved _ hr]; exact fun _ _ => rfl

end Uniformity

section Depth

/-- The references that the names in scope allow for. -/
def references (scope : Scope) : Finset Reference :=
  ((scope.map Prod.fst).toFinset ×ˢ Finset.univ).image fun x => ⟨x.1, x.2⟩

theorem mem_of_find? {scope : Scope} {name : String} {entity : Entity}
    (h : scope.find? name = some entity) : (name, entity) ∈ scope := by
  obtain ⟨before, after, hscope, -⟩ := List.lookup_eq_some_iff.mp h
  simp [hscope]

theorem mem_references {scope : Scope} {r : Reference} {entity : Entity}
    (h : scope.find? r.name = some entity) : r ∈ references scope := by
  have hname : r.name ∈ (scope.map Prod.fst).toFinset :=
    List.mem_toFinset.mpr (List.mem_map_of_mem (mem_of_find? h))
  exact Finset.mem_image.mpr
    ⟨(r.name, r.reversed), Finset.mem_product.mpr ⟨hname, Finset.mem_univ _⟩, rfl⟩

theorem card_references_le (scope : Scope) : (references scope).card ≤ 2 * scope.length := by
  calc (references scope).card
      ≤ ((scope.map Prod.fst).toFinset ×ˢ (Finset.univ : Finset Bool)).card := Finset.card_image_le
    _ = (scope.map Prod.fst).toFinset.card * 2 := by rw [Finset.card_product]; rfl
    _ ≤ scope.length * 2 := by
      have h := (scope.map Prod.fst).toFinset_card_le
      rw [List.length_map] at h
      omega
    _ = 2 * scope.length := Nat.mul_comm _ _

variable (box : BoxMaker) (scope : Scope) (targets : Targets) (condition : Option Condition)

/-- The references that are run to their end within a depth. -/
def settled (depth : Nat) : Finset Reference :=
  (references scope).filter fun r =>
    runPartWithin box scope targets condition depth (.named r) ⟨.blank 0, []⟩ ≠ endless

/-- A depth beyond which nothing changes. -/
def Stable (depth : Nat) : Prop :=
  runPartWithin box scope targets condition (depth + 1) =
    runPartWithin box scope targets condition depth

variable {box scope targets condition}

theorem settled_subset_succ (depth : Nat) :
    settled box scope targets condition depth ⊆
      settled box scope targets condition (depth + 1) := by
  intro r hr
  obtain ⟨href, hend⟩ := Finset.mem_filter.mp hr
  exact Finset.mem_filter.mpr ⟨href, by rwa [runPartWithin_mono hend]⟩

theorem Stable.succ {depth : Nat} (h : Stable box scope targets condition depth) :
    Stable box scope targets condition (depth + 1) := by
  funext p
  cases p using partCases scope with
  | gate call => rw [runPartWithin_gate, runPartWithin_gate]
  | pipeline r parts hr => rw [runPartWithin_succ _ hr, runPartWithin_succ _ hr, h]
  | unresolved r hr => rw [runPartWithin_unresolved _ hr, runPartWithin_unresolved _ hr]

theorem Stable.mono {depth depth' : Nat} (h : Stable box scope targets condition depth)
    (hle : depth ≤ depth') : Stable box scope targets condition depth' := by
  induction depth', hle using Nat.le_induction with
  | base => exact h
  | succ n _ ih => exact ih.succ

/-- As long as more depth changes something, it settles another reference. -/
theorem settled_ssubset (hbox : ∀ body qs, Uniform (box body qs)) {depth : Nat}
    (h : ¬Stable box scope targets condition depth) :
    settled box scope targets condition depth ⊂
      settled box scope targets condition (depth + 1) := by
  obtain ⟨p, hp⟩ := Function.ne_iff.mp h
  obtain ⟨cs, hcs⟩ := Function.ne_iff.mp hp
  have hlow : runPartWithin box scope targets condition depth p cs = endless := by
    by_contra hne
    exact hcs (runPartWithin_mono hne)
  have hhigh : runPartWithin box scope targets condition (depth + 1) p cs ≠ endless := by
    rwa [hlow] at hcs
  have huni := Uniform.runPartWithin hbox scope targets condition
  cases p using partCases scope with
  | gate call => exact absurd (by rw [runPartWithin_gate, runPartWithin_gate]) hcs
  | unresolved r hr =>
    exact absurd (by rw [runPartWithin_unresolved _ hr, runPartWithin_unresolved _ hr]) hcs
  | pipeline r parts hr =>
    have href := mem_references hr
    refine Finset.ssubset_iff_of_subset (settled_subset_succ depth) |>.mpr ⟨r, ?_, ?_⟩
    · refine Finset.mem_filter.mpr ⟨href, fun he => hhigh ?_⟩
      exact (huni (depth + 1) (.named r)).eq_endless he cs
    · intro hr
      exact (Finset.mem_filter.mp hr).2 ((huni depth (.named r)).eq_endless hlow _)

/-- The depth of an expansion is as good as any larger one. -/
theorem stable_two_mul_length (hbox : ∀ body qs, Uniform (box body qs)) :
    Stable box scope targets condition (2 * scope.length) := by
  by_contra h
  -- as long as the runs still change, each depth settles a reference that no smaller one does, and
  -- there are only two references to a declared name
  have hgrow : ∀ depth ≤ 2 * scope.length + 1,
      depth ≤ (settled box scope targets condition depth).card := by
    intro depth
    induction depth with
    | zero => exact fun _ => Nat.zero_le _
    | succ depth ih =>
      intro hle
      have hun : ¬Stable box scope targets condition depth :=
        fun hs => h (hs.mono (by omega))
      exact Nat.lt_of_le_of_lt (ih (by omega)) (Finset.card_lt_card (settled_ssubset hbox hun))
  have hmax : (settled box scope targets condition (2 * scope.length + 1)).card ≤
      2 * scope.length :=
    (Finset.card_le_card (Finset.filter_subset _ _)).trans (card_references_le scope)
  exact absurd (hgrow _ le_rfl) (by omega)

end Depth

section Unfolding

variable {box : BoxMaker} {scope : Scope} {targets : Targets} {condition : Option Condition}

@[simp] theorem runPart_gate (call : GateCall) :
    runPart box scope targets condition (.gate call) = runCall box scope targets condition call :=
  runPartWithin_gate _ call

theorem runPart_unresolved {r : Reference}
    (h : ∀ parts, scope.find? r.name ≠ some (.pipeline parts)) :
    runPart box scope targets condition (.named r) = failed (referenceError scope r) :=
  runPartWithin_unresolved _ h

/-- A reference runs the parts that it stands for. -/
theorem runPart_named (hbox : ∀ body qs, Uniform (box body qs)) {r : Reference} {parts : List Part}
    (h : scope.find? r.name = some (.pipeline parts)) :
    runPart box scope targets condition (.named r) =
      runEach (runPart box scope targets condition) (oriented r parts) := by
  have hstable : Stable box scope targets condition (2 * scope.length) :=
    stable_two_mul_length hbox
  calc runPart box scope targets condition (.named r)
      = runPartWithin box scope targets condition (2 * scope.length + 1) (.named r) :=
        (congrFun hstable _).symm
    _ = runEach (runPart box scope targets condition) (oriented r parts) := runPartWithin_succ _ h

/-- What every gate call keeps, a pipeline keeps. -/
theorem Ensures.runPipelineWith {P : Circuits → Prop} {cs : Circuits}
    (h : ∀ call cs, P cs → (runCall box scope targets condition call cs).Ensures P)
    (parts : List Part) (hcs : P cs) :
    (runPipelineWith box scope targets condition parts cs).Ensures P := by
  refine (Ensures.runEach (fun call _ => h call) hcs).andThen fun cs₁ hcs₁ => ?_
  cases (expand scope parts).stop with
  | none => exact ensures_done.mpr hcs₁
  | some stop => cases stop <;> simp [Stop.outcome, hcs₁]

end Unfolding

end GateScript.Lower
