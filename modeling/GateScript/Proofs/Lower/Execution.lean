import GateScript.Proofs.Lower.Inlining

/-!
Running pipelines by rules.

A run that ends has a derivation in `Executes`, which runs a named pipeline to its end before the
parts after it. A run that does not end goes on into named pipelines: `Comes` counts how many of
them are open where the run has come to. A run is done, fails at a part that it comes to, or comes
to every depth.
-/
namespace GateScript.Lower

open Program Outcome

section Rules

variable (box : BoxMaker) (scope : Scope) (targets : Targets) (condition : Option Condition)

/-- The runs of a pipeline that end, with what they end with. -/
inductive Executes : List Part → Circuits → Outcome Circuits → Prop
  | nil (cs : Circuits) : Executes [] cs (.done cs)
  | call {call : GateCall} {parts : List Part} {cs cs' : Circuits} {o : Outcome Circuits}
      (h : runCall box scope targets condition call cs = .done cs') (rest : Executes parts cs' o) :
    Executes (.gate call :: parts) cs o
  | callFails {call : GateCall} {cs cs' : Circuits} {e : LowerError}
      (h : runCall box scope targets condition call cs = .failed e cs') (parts : List Part) :
    Executes (.gate call :: parts) cs (.failed e cs')
  | named {r : Reference} {body parts : List Part} {cs cs' : Circuits} {o : Outcome Circuits}
      (hr : scope.find? r.name = some (.pipeline body))
      (inner : Executes (oriented r body) cs (.done cs')) (rest : Executes parts cs' o) :
    Executes (.named r :: parts) cs o
  | namedFails {r : Reference} {body : List Part} {cs cs' : Circuits} {e : LowerError}
      (hr : scope.find? r.name = some (.pipeline body))
      (inner : Executes (oriented r body) cs (.failed e cs')) (parts : List Part) :
    Executes (.named r :: parts) cs (.failed e cs')
  | unresolved {r : Reference} (hr : ∀ body, scope.find? r.name ≠ some (.pipeline body))
      (parts : List Part) (cs : Circuits) :
    Executes (.named r :: parts) cs (.failed (referenceError scope r) cs)

/-- A run comes to the parts `rest`, with `depth` named pipelines open around them. -/
inductive Comes : List Part → Circuits → (depth : Nat) → (rest : List Part) → Circuits → Prop
  | here (parts : List Part) (cs : Circuits) : Comes parts cs 0 parts cs
  | past {part : Part} {parts rest : List Part} {cs cs' cs'' : Circuits} {depth : Nat}
      (h : Executes box scope targets condition [part] cs (.done cs'))
      (later : Comes parts cs' depth rest cs'') : Comes (part :: parts) cs depth rest cs''
  | opens {r : Reference} {body parts rest : List Part} {cs cs' : Circuits} {depth : Nat}
      (hr : scope.find? r.name = some (.pipeline body))
      (inner : Comes (oriented r body) cs depth rest cs') :
    Comes (.named r :: parts) cs (depth + 1) rest cs'

/-- A part fails by itself: a gate call that fails, or a reference that leads nowhere. -/
inductive FailsOutright : Part → Circuits → LowerError → Circuits → Prop
  | call {call : GateCall} {cs cs' : Circuits} {e : LowerError}
      (h : runCall box scope targets condition call cs = .failed e cs') :
    FailsOutright (.gate call) cs e cs'
  | unresolved {r : Reference} (hr : ∀ body, scope.find? r.name ≠ some (.pipeline body))
      (cs : Circuits) : FailsOutright (.named r) cs (referenceError scope r) cs

/-- The run fails at a part that it comes to, once all that is before the part is done. -/
def FailsAt (parts : List Part) (cs : Circuits) (e : LowerError) (cs' : Circuits) : Prop :=
  ∃ depth part rest cs₁, Comes box scope targets condition parts cs depth (part :: rest) cs₁ ∧
    FailsOutright box scope targets condition part cs₁ e cs'

/-- The run recurses without end: at any depth it opens one more named pipeline. -/
def Descends (parts : List Part) (cs : Circuits) : Prop :=
  ∀ depth, ∃ rest cs', Comes box scope targets condition parts cs depth rest cs'

end Rules

/-- Boxes of which it does not depend on the circuits how they end, and that do end. -/
structure BoxMaker.Regular (box : BoxMaker) : Prop where
  uniform : ∀ body targets, Uniform (box body targets)
  ends : ∀ body targets cs, box body targets cs ≠ endless

section Ends

theorem ofCheck_ne_endless {σ : Type} (check : Except LowerError (σ → σ)) (s : σ) :
    ofCheck check s ≠ endless := by
  cases check <;> simp [ofCheck]

theorem andThen_ne_endless {σ : Type} {o : Outcome σ} {next : σ → Outcome σ} (h : o ≠ endless)
    (hnext : ∀ s, next s ≠ endless) : o.andThen next ≠ endless := by
  cases o with
  | done s => exact hnext s
  | failed e s => simp
  | endless => exact absurd rfl h

theorem map_ne_endless {σ τ : Type} (f : σ → τ) {o : Outcome σ} (h : o ≠ endless) :
    o.map f ≠ endless := by
  cases o with
  | endless => exact absurd rfl h
  | _ => simp

/-- Steps that end do so one after the other. -/
theorem runEach_ne_endless {α σ : Type} {step : α → σ → Outcome σ} {as : List α}
    (h : ∀ a ∈ as, ∀ s, step a s ≠ endless) (s : σ) : runEach step as s ≠ endless := by
  induction as generalizing s with
  | nil => simp
  | cons a as ih =>
    refine andThen_ne_endless (h a List.mem_cons_self s) fun s' => ?_
    exact ih (fun b hb => h b (List.mem_cons_of_mem a hb)) s'

variable {box : BoxMaker}

theorem QubitRule.run_ne_endless (hbox : box.Regular) (rule : QubitRule) (args : List Value)
    (condition : Option Condition) (targets : List Qubit) (cs : Circuits) :
    rule.run box args condition targets cs ≠ endless := by
  cases rule with
  | each rule =>
    have happly : ∀ q ∈ targets, ∀ c, rule.apply numberAngle args condition q c ≠ endless :=
      fun q _ c => rule.apply_ne_endless numberAngle args condition q c
    exact map_ne_endless _ (runEach_ne_endless happly cs.main)
  | measure => simp [QubitRule.run, onMain]
  | barrier => exact map_ne_endless _ (ofCheck_ne_endless _ _)
  | phase => exact map_ne_endless _ (ofCheck_ne_endless _ _)
  | box =>
    simp only [QubitRule.run]
    cases boxBody args condition with
    | error e => simp
    | ok body => exact hbox.ends body targets cs

theorem runCall_ne_endless (hbox : box.Regular) (scope : Scope) (targets : Targets)
    (condition : Option Condition) (call : GateCall) (cs : Circuits) :
    runCall box scope targets condition call cs ≠ endless := by
  unfold runCall
  cases prepare scope targets call with
  | error e => simp
  | ok p =>
    obtain ⟨args, qubitRule, bitRule⟩ := p
    refine andThen_ne_endless ?_ fun cs' => ?_
    · cases qubitRule with
      | none => simp
      | some rule => exact rule.run_ne_endless hbox args condition targets.qubits _
    · cases bitRule with
      | none => simp
      | some rule =>
        exact map_ne_endless _ (runEach_ne_endless (fun b _ c => ofCheck_ne_endless _ c) cs'.main)

/-- Parts that open no named pipeline end. -/
theorem runPart_ne_endless (hbox : box.Regular) {scope : Scope} {part : Part}
    (h : ∀ r body, part = .named r → scope.find? r.name ≠ some (.pipeline body))
    (targets : Targets) (condition : Option Condition) (cs : Circuits) :
    runPart box scope targets condition part cs ≠ endless := by
  cases part with
  | gate call =>
    rw [runPart_gate]
    exact runCall_ne_endless hbox scope targets condition call cs
  | named r =>
    rw [runPart_unresolved fun body => h r body rfl]
    simp

theorem noBox_regular : noBox.Regular := ⟨Uniform.noBox, fun _ _ _ => by simp [noBox]⟩

/-- The body of a box ends, whatever is in it, since no name is known there. -/
theorem runBody_ne_endless (body : List Part) (width : Nat) : runBody body width ≠ endless := by
  rw [runBody, runPipelineWith_eq_runEach]
  refine runEach_ne_endless (fun part _ cs => ?_) _
  exact runPart_ne_endless noBox_regular (by simp [Scope.find?]) _ none cs

theorem makeBox_regular : makeBox.Regular := by
  refine ⟨Uniform.makeBox, fun body targets cs => ?_⟩
  unfold makeBox
  cases hbody : runBody body targets.length with
  | endless => exact absurd hbody (runBody_ne_endless body targets.length)
  | _ => simp

end Ends

section Agreement

variable {box : BoxMaker} {scope : Scope} {targets : Targets} {condition : Option Condition}
  {parts : List Part} {cs : Circuits}

theorem Executes.ne_endless {o : Outcome Circuits}
    (h : Executes box scope targets condition parts cs o) : o ≠ endless := by
  induction h with
  | nil cs => simp
  | call _ _ ih => exact ih
  | callFails _ _ => simp
  | named _ _ _ _ ih => exact ih
  | namedFails _ _ _ _ => simp
  | unresolved _ _ _ => simp

theorem Executes.runEach_eq (hbox : box.Regular) {o : Outcome Circuits}
    (h : Executes box scope targets condition parts cs o) :
    runEach (runPart box scope targets condition) parts cs = o := by
  induction h with
  | nil cs => rfl
  | call h _ ih => rw [runEach_cons, runPart_gate, h, andThen_done, ih]
  | callFails h _ => rw [runEach_cons, runPart_gate, h, andThen_failed]
  | named hr _ _ ihinner ih =>
    rw [runEach_cons, runPart_named hbox.uniform hr, ihinner, andThen_done, ih]
  | namedFails hr _ _ ih =>
    rw [runEach_cons, runPart_named hbox.uniform hr, ih, andThen_failed]
  | unresolved hr _ _ => rw [runEach_cons, runPart_unresolved hr, andThen_failed]

theorem Executes.andThen {part : Part} {cs' : Circuits} {o : Outcome Circuits}
    (h : Executes box scope targets condition [part] cs (.done cs'))
    (rest : Executes box scope targets condition parts cs' o) :
    Executes box scope targets condition (part :: parts) cs o := by
  cases h with
  | call hcall hnil => cases hnil; exact .call hcall rest
  | named hr inner hnil => cases hnil; exact .named hr inner rest

theorem Executes.fails {part : Part} {cs' : Circuits} {e : LowerError}
    (h : Executes box scope targets condition [part] cs (.failed e cs')) (parts : List Part) :
    Executes box scope targets condition (part :: parts) cs (.failed e cs') := by
  cases h with
  | call _ hnil => cases hnil
  | callFails hcall _ => exact .callFails hcall parts
  | named _ _ hnil => cases hnil
  | namedFails hr inner _ => exact .namedFails hr inner parts
  | unresolved hr _ _ => exact .unresolved hr parts cs

theorem executes_call {call : GateCall}
    (h : runCall box scope targets condition call cs ≠ endless) :
    Executes box scope targets condition [.gate call] cs
      (runCall box scope targets condition call cs) := by
  cases hcall : runCall box scope targets condition call cs with
  | done cs' => exact .call hcall (.nil cs')
  | failed e cs' => exact .callFails hcall []
  | endless => exact absurd hcall h

theorem executes_named {r : Reference} {body : List Part} {o : Outcome Circuits}
    (hr : scope.find? r.name = some (.pipeline body))
    (h : Executes box scope targets condition (oriented r body) cs o) :
    Executes box scope targets condition [.named r] cs o := by
  cases o with
  | done cs' => exact .named hr h (.nil cs')
  | failed e cs' => exact .namedFails hr h []
  | endless => exact absurd rfl h.ne_endless

/-- A way to run parts that has derivations for single parts has them for pipelines. -/
theorem executes_of_runEach {run : Part → Circuits → Outcome Circuits}
    (hrun : ∀ part cs, run part cs ≠ endless →
      Executes box scope targets condition [part] cs (run part cs))
    (h : runEach run parts cs ≠ endless) :
    Executes box scope targets condition parts cs (runEach run parts cs) := by
  induction parts generalizing cs with
  | nil => exact .nil cs
  | cons part parts ih =>
    rw [runEach_cons] at h ⊢
    have hpart := hrun part cs
    cases hfirst : run part cs with
    | done cs' =>
      rw [hfirst] at h hpart
      exact (hpart (by simp)).andThen (ih h)
    | failed e cs' =>
      rw [hfirst] at hpart
      exact (hpart (by simp)).fails parts
    | endless => simp [hfirst] at h

/-- A part that ends within some depth has a derivation. -/
theorem executes_of_runPartWithin (depth : Nat) (part : Part) (cs : Circuits)
    (h : runPartWithin box scope targets condition depth part cs ≠ endless) :
    Executes box scope targets condition [part] cs
      (runPartWithin box scope targets condition depth part cs) := by
  induction depth generalizing part cs with
  | zero =>
    cases part using partCases scope with
    | gate call =>
      rw [runPartWithin_gate] at h ⊢
      exact executes_call h
    | pipeline r body hr => simp [runPartWithin_zero hr] at h
    | unresolved r hr =>
      rw [runPartWithin_unresolved _ hr]
      exact .unresolved hr [] cs
  | succ depth ih =>
    cases part using partCases scope with
    | gate call =>
      rw [runPartWithin_gate] at h ⊢
      exact executes_call h
    | pipeline r body hr =>
      rw [runPartWithin_succ _ hr] at h ⊢
      exact executes_named hr (executes_of_runEach ih h)
    | unresolved r hr =>
      rw [runPartWithin_unresolved _ hr]
      exact .unresolved hr [] cs

/-- The derivations are those of the runs that end. -/
theorem executes_iff (hbox : box.Regular) {o : Outcome Circuits} :
    Executes box scope targets condition parts cs o ↔
      o ≠ endless ∧ runPipelineWith box scope targets condition parts cs = o := by
  rw [runPipelineWith_eq_runEach]
  constructor
  · exact fun h => ⟨h.ne_endless, h.runEach_eq hbox⟩
  · rintro ⟨hne, rfl⟩
    exact executes_of_runEach (executes_of_runPartWithin (2 * scope.length)) hne

theorem Executes.unique (hbox : box.Regular) {o o' : Outcome Circuits}
    (h : Executes box scope targets condition parts cs o)
    (h' : Executes box scope targets condition parts cs o') : o = o' :=
  (h.runEach_eq hbox).symm.trans (h'.runEach_eq hbox)

end Agreement

section Places

variable {box : BoxMaker} {scope : Scope} {targets : Targets} {condition : Option Condition}

theorem Comes.trans {parts rest rest' : List Part} {cs cs' cs'' : Circuits} {depth depth' : Nat}
    (h : Comes box scope targets condition parts cs depth rest cs')
    (h' : Comes box scope targets condition rest cs' depth' rest' cs'') :
    Comes box scope targets condition parts cs (depth + depth') rest' cs'' := by
  induction h with
  | here parts cs => rwa [Nat.zero_add]
  | past h _ ih => exact .past h (ih h')
  | opens hr _ ih =>
    rw [Nat.add_right_comm]
    exact .opens hr (ih h')

/-- The first part of a run is done, and the others follow. -/
theorem Executes.first {part : Part} {parts : List Part} {cs cs' : Circuits}
    (h : Executes box scope targets condition (part :: parts) cs (.done cs')) :
    ∃ cs₁, Executes box scope targets condition [part] cs (.done cs₁) ∧
      Executes box scope targets condition parts cs₁ (.done cs') := by
  cases h with
  | call hcall rest => exact ⟨_, .call hcall (.nil _), rest⟩
  | named hr inner rest => exact ⟨_, .named hr inner (.nil _), rest⟩

theorem Executes.body {r : Reference} {body parts : List Part} {cs cs' : Circuits}
    (h : Executes box scope targets condition (.named r :: parts) cs (.done cs'))
    (hr : scope.find? r.name = some (.pipeline body)) :
    ∃ cs₁, Executes box scope targets condition (oriented r body) cs (.done cs₁) := by
  cases h with
  | named hr' inner _ =>
    cases hr.symm.trans hr'
    exact ⟨_, inner⟩

/-- Whatever a run comes to that is done is done in turn. -/
theorem Comes.executes (hbox : box.Regular) {parts rest : List Part} {cs cs₁ cs' : Circuits}
    {depth : Nat} (h : Comes box scope targets condition parts cs depth rest cs₁)
    (hdone : Executes box scope targets condition parts cs (.done cs')) :
    ∃ cs₂, Executes box scope targets condition rest cs₁ (.done cs₂) := by
  induction h generalizing cs' with
  | here parts cs => exact ⟨cs', hdone⟩
  | past h _ ih =>
    obtain ⟨cs₂, hfirst, hrest⟩ := hdone.first
    cases hfirst.unique hbox h
    exact ih hrest
  | opens hr _ ih =>
    obtain ⟨cs₂, hbody⟩ := hdone.body hr
    exact ih hbody

theorem Executes.comes_mem {parts : List Part} {cs cs' : Circuits} {part : Part}
    (h : Executes box scope targets condition parts cs (.done cs')) (hpart : part ∈ parts) :
    ∃ rest cs₁, Comes box scope targets condition parts cs 0 (part :: rest) cs₁ := by
  induction parts generalizing cs with
  | nil => simp at hpart
  | cons first parts ih =>
    obtain ⟨cs₁, hfirst, hrest⟩ := h.first
    rcases List.mem_cons.mp hpart with rfl | hpart
    · exact ⟨parts, cs, .here _ _⟩
    · obtain ⟨rest, cs₂, hcomes⟩ := ih hrest hpart
      exact ⟨rest, cs₂, .past hfirst hcomes⟩

/-- A run that is done comes to every part of the pipeline, at every depth. -/
theorem Executes.comes_partOf (hbox : box.Regular) {parts : List Part} {cs cs' : Circuits}
    {part : Part} (h : Executes box scope targets condition parts cs (.done cs'))
    (hpart : PartOf scope parts part) :
    ∃ depth rest cs₁, Comes box scope targets condition parts cs depth (part :: rest) cs₁ := by
  induction hpart with
  | direct hmem => exact ⟨0, h.comes_mem hmem⟩
  | @inner r body part _ hr hmem ih =>
    obtain ⟨depth, rest, cs₁, houter⟩ := ih
    obtain ⟨cs₂, hexec⟩ := houter.executes hbox h
    obtain ⟨cs₃, hbody⟩ := hexec.body hr
    obtain ⟨rest', cs₄, hcomes⟩ := hbody.comes_mem (mem_oriented.mpr hmem)
    exact ⟨_, rest', cs₄, houter.trans (.opens hr hcomes)⟩

/-- A run that ends comes only so deep. -/
theorem Executes.exists_bound (hbox : box.Regular) {parts : List Part} {cs : Circuits}
    {o : Outcome Circuits} (h : Executes box scope targets condition parts cs o) :
    ∃ bound, ∀ depth rest cs', Comes box scope targets condition parts cs depth rest cs' →
      depth ≤ bound := by
  induction h with
  | nil cs =>
    refine ⟨0, fun depth rest cs' hcomes => ?_⟩
    cases hcomes
    exact le_rfl
  | call h rest ih =>
    obtain ⟨bound, hbound⟩ := ih
    refine ⟨bound, fun depth rest cs' hcomes => ?_⟩
    cases hcomes with
    | here => exact Nat.zero_le _
    | past hfirst later =>
      cases hfirst.unique hbox (.call h (.nil _))
      exact hbound _ _ _ later
  | callFails h parts =>
    refine ⟨0, fun depth rest cs' hcomes => ?_⟩
    cases hcomes with
    | here => exact le_rfl
    | past hfirst _ => exact absurd (hfirst.unique hbox (.callFails h [])) (by simp)
  | named hr inner rest ihinner ihrest =>
    obtain ⟨bound, hbound⟩ := ihinner
    obtain ⟨bound', hbound'⟩ := ihrest
    refine ⟨max (bound + 1) bound', fun depth rest cs' hcomes => ?_⟩
    cases hcomes with
    | here => exact Nat.zero_le _
    | past hfirst later =>
      cases hfirst.unique hbox (.named hr inner (.nil _))
      exact (hbound' _ _ _ later).trans (le_max_right _ _)
    | opens hr' hinner =>
      cases hr.symm.trans hr'
      exact (Nat.succ_le_succ (hbound _ _ _ hinner)).trans (le_max_left _ _)
  | namedFails hr inner parts ih =>
    obtain ⟨bound, hbound⟩ := ih
    refine ⟨bound + 1, fun depth rest cs' hcomes => ?_⟩
    cases hcomes with
    | here => exact Nat.zero_le _
    | past hfirst _ => exact absurd (hfirst.unique hbox (.namedFails hr inner [])) (by simp)
    | opens hr' hinner =>
      cases hr.symm.trans hr'
      exact Nat.succ_le_succ (hbound _ _ _ hinner)
  | unresolved hr parts cs =>
    refine ⟨0, fun depth rest cs' hcomes => ?_⟩
    cases hcomes with
    | here => exact le_rfl
    | past hfirst _ => exact absurd (hfirst.unique hbox (.unresolved hr [] cs)) (by simp)
    | opens hr' _ => exact absurd hr' (hr _)

theorem Executes.not_descends (hbox : box.Regular) {parts : List Part} {cs : Circuits}
    {o : Outcome Circuits} (h : Executes box scope targets condition parts cs o) :
    ¬Descends box scope targets condition parts cs := by
  intro hdescends
  obtain ⟨bound, hbound⟩ := h.exists_bound hbox
  obtain ⟨rest, cs', hcomes⟩ := hdescends (bound + 1)
  exact absurd (hbound _ _ _ hcomes) (by omega)

/-- A run that fails does so at a part that it comes to. -/
theorem Executes.failsAt {parts : List Part} {cs cs' : Circuits} {e : LowerError}
    (h : Executes box scope targets condition parts cs (.failed e cs')) :
    FailsAt box scope targets condition parts cs e cs' := by
  generalize ho : Outcome.failed e cs' = o at h
  induction h with
  | nil cs => simp at ho
  | call h _ ih =>
    obtain ⟨depth, part, rest, cs₁, hcomes, hfails⟩ := ih ho
    exact ⟨depth, part, rest, cs₁, .past (.call h (.nil _)) hcomes, hfails⟩
  | callFails h parts =>
    cases ho
    exact ⟨0, _, parts, _, .here _ _, .call h⟩
  | named hr inner _ _ ih =>
    obtain ⟨depth, part, rest, cs₁, hcomes, hfails⟩ := ih ho
    exact ⟨depth, part, rest, cs₁, .past (.named hr inner (.nil _)) hcomes, hfails⟩
  | namedFails hr _ parts ih =>
    cases ho
    obtain ⟨depth, part, rest, cs₁, hcomes, hfails⟩ := ih rfl
    exact ⟨depth + 1, part, rest, cs₁, .opens hr hcomes, hfails⟩
  | unresolved hr parts cs₁ =>
    cases ho
    exact ⟨0, _, parts, _, .here _ _, .unresolved hr _⟩

/-- A run without end comes to every depth. -/
theorem descends_of_endless (hbox : box.Regular) {parts : List Part} {cs : Circuits}
    (h : runPipelineWith box scope targets condition parts cs = endless) :
    Descends box scope targets condition parts cs := by
  intro depth
  rw [runPipelineWith_eq_runEach] at h
  induction depth generalizing parts cs with
  | zero => exact ⟨parts, cs, .here parts cs⟩
  | succ depth ihdepth =>
    induction parts generalizing cs with
    | nil => simp at h
    | cons part parts ih =>
      rw [runEach_cons] at h
      cases hpart : runPart box scope targets condition part cs with
      | done cs' =>
        rw [hpart] at h
        obtain ⟨rest, cs'', hcomes⟩ := ih h
        have hexec : Executes box scope targets condition [part] cs (.done cs') := by
          rw [executes_iff hbox, runPipelineWith_eq_runEach, runEach_cons, hpart]
          simp
        exact ⟨rest, cs'', .past hexec hcomes⟩
      | failed e cs' => simp [hpart] at h
      | endless =>
        -- only a named pipeline goes on forever, and then its body does
        cases part using partCases scope with
        | gate call =>
          rw [runPart_gate] at hpart
          exact absurd hpart (runCall_ne_endless hbox scope targets condition call cs)
        | pipeline r body hr =>
          rw [runPart_named hbox.uniform hr] at hpart
          obtain ⟨rest, cs', hcomes⟩ := ihdepth hpart
          exact ⟨rest, cs', .opens hr hcomes⟩
        | unresolved r hr => simp [runPart_unresolved hr] at hpart

theorem descends_iff (hbox : box.Regular) {parts : List Part} {cs : Circuits} :
    Descends box scope targets condition parts cs ↔
      runPipelineWith box scope targets condition parts cs = endless := by
  refine ⟨fun h => ?_, descends_of_endless hbox⟩
  by_contra hne
  exact ((executes_iff hbox).mpr ⟨hne, rfl⟩).not_descends hbox h

end Places

end GateScript.Lower
