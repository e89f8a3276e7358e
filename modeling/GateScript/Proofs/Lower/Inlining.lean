import GateScript.Proofs.Lower.Pipeline

/-!
Named pipelines mean their bodies.

A reference can be replaced by the parts that it stands for, wherever it is and however the
pipeline ends. If no name leads back to itself, replacing references again and again comes to an
end, with a list of gate calls and of references that lead nowhere.
-/
namespace GateScript.Lower

open Program Outcome

section Unfolding

variable {scope : Scope}

theorem runPipeline_eq_runEach (targets : Targets) (condition : Option Condition)
    (parts : List Part) (cs : Circuits) :
    runPipeline scope targets condition parts cs =
      runEach (runPart makeBox scope targets condition) parts cs :=
  runPipelineWith_eq_runEach makeBox scope targets condition parts cs

theorem runPipeline_congr_cons {targets : Targets} {condition : Option Condition}
    {parts parts' : List Part} (part : Part)
    (h : ∀ cs, runPipeline scope targets condition parts cs =
      runPipeline scope targets condition parts' cs) (cs : Circuits) :
    runPipeline scope targets condition (part :: parts) cs =
      runPipeline scope targets condition (part :: parts') cs := by
  simp only [runPipeline_eq_runEach, runEach_cons] at h ⊢
  congr 1
  funext cs
  exact h cs

theorem runPipeline_append (targets : Targets) (condition : Option Condition)
    (before after : List Part) (cs : Circuits) :
    runPipeline scope targets condition (before ++ after) cs =
      (runPipeline scope targets condition before cs).andThen
        (runPipeline scope targets condition after) := by
  simp only [runPipeline_eq_runEach, runEach_append]
  congr 1
  funext cs
  rw [runPipeline_eq_runEach]

theorem runPipeline_gates (targets : Targets) (condition : Option Condition)
    (calls : List GateCall) (cs : Circuits) :
    runPipeline scope targets condition (calls.map .gate) cs =
      runEach (runCall makeBox scope targets condition) calls cs := by
  rw [runPipeline_eq_runEach, runEach_map]
  simp only [runPart_gate]

/-- A reference at the front can be replaced by the parts that it stands for. -/
theorem runPipeline_named {r : Reference} {body : List Part}
    (hr : scope.find? r.name = some (.pipeline body)) (targets : Targets)
    (condition : Option Condition) (after : List Part) (cs : Circuits) :
    runPipeline scope targets condition (.named r :: after) cs =
      runPipeline scope targets condition (oriented r body ++ after) cs := by
  rw [runPipeline_eq_runEach, runPipeline_eq_runEach, runEach_cons,
    runPart_named Uniform.makeBox hr, runEach_append]

theorem runPipeline_named_within {r : Reference} {body : List Part}
    (hr : scope.find? r.name = some (.pipeline body)) (targets : Targets)
    (condition : Option Condition) (before after : List Part) (cs : Circuits) :
    runPipeline scope targets condition (before ++ .named r :: after) cs =
      runPipeline scope targets condition (before ++ oriented r body ++ after) cs := by
  rw [List.append_assoc, runPipeline_append, runPipeline_append]
  congr 1
  funext cs
  exact runPipeline_named hr targets condition after cs

end Unfolding

section Inlining

/-- Every reference is replaced by what its body comes to, at every depth. References that lead
nowhere are left. -/
inductive Inlines (scope : Scope) : List Part → List Part → Prop
  | nil : Inlines scope [] []
  | gate (call : GateCall) {parts flat : List Part} (rest : Inlines scope parts flat) :
    Inlines scope (.gate call :: parts) (.gate call :: flat)
  | unresolved {r : Reference} (hr : ∀ body, scope.find? r.name ≠ some (.pipeline body))
      {parts flat : List Part} (rest : Inlines scope parts flat) :
    Inlines scope (.named r :: parts) (.named r :: flat)
  | named {r : Reference} {body inner : List Part}
      (hr : scope.find? r.name = some (.pipeline body))
      (hbody : Inlines scope (oriented r body) inner)
      {parts flat : List Part} (rest : Inlines scope parts flat) :
    Inlines scope (.named r :: parts) (inner ++ flat)

/-- No name that a pipeline leads to leads back to itself. -/
def Acyclic (scope : Scope) (parts : List Part) : Prop :=
  ∀ r body, PartOf scope parts (.named r) → scope.find? r.name = some (.pipeline body) →
    ∀ r', PartOf scope body (.named r') → r'.name ≠ r.name

/-- Every name that a pipeline leads to is that of a pipeline. -/
def Resolved (scope : Scope) (parts : List Part) : Prop :=
  ∀ r, PartOf scope parts (.named r) → ∃ body, scope.find? r.name = some (.pipeline body)

variable {scope : Scope}

theorem PartOf.mono {parts parts' : List Part} (hsub : parts ⊆ parts') {part : Part}
    (h : PartOf scope parts part) : PartOf scope parts' part := by
  induction h with
  | direct h => exact .direct (hsub h)
  | inner _ hr h ih => exact .inner ih hr h

theorem PartOf.of_body {parts body : List Part} {r : Reference} {part : Part}
    (h : PartOf scope body part) (outer : PartOf scope parts (.named r))
    (hr : scope.find? r.name = some (.pipeline body)) : PartOf scope parts part := by
  induction h with
  | direct h => exact .inner outer hr h
  | inner _ hr' h ih => exact .inner ih hr' h

theorem oriented_subset (r : Reference) (body : List Part) : oriented r body ⊆ body :=
  fun _ => mem_oriented.mp

theorem Acyclic.of_body {parts body : List Part} {r : Reference} (h : Acyclic scope parts)
    (outer : PartOf scope parts (.named r)) (hr : scope.find? r.name = some (.pipeline body)) :
    Acyclic scope (oriented r body) :=
  fun r' body' hr' => h r' body' ((hr'.mono (oriented_subset r body)).of_body outer hr)

theorem Inlines.unique {parts flat flat' : List Part} (h : Inlines scope parts flat)
    (h' : Inlines scope parts flat') : flat = flat' := by
  induction h generalizing flat' with
  | nil =>
    cases h'
    rfl
  | gate call _ ih =>
    cases h' with
    | gate _ rest => rw [ih rest]
  | unresolved hr _ ih =>
    cases h' with
    | unresolved _ rest => rw [ih rest]
    | named hr' _ _ => exact absurd hr' (hr _)
  | named hr _ _ ihbody ih =>
    cases h' with
    | unresolved hr' _ => exact absurd hr (hr' _)
    | named hr' hbody rest =>
      cases hr.symm.trans hr'
      rw [ihbody hbody, ih rest]

/-- Inlining changes nothing, whatever the pipeline is run on. -/
theorem Inlines.run_eq {parts flat : List Part} (h : Inlines scope parts flat) (targets : Targets)
    (condition : Option Condition) (cs : Circuits) :
    runPipeline scope targets condition parts cs = runPipeline scope targets condition flat cs := by
  induction h generalizing cs with
  | nil => rfl
  | gate call _ ih => exact runPipeline_congr_cons (.gate call) ih cs
  | @unresolved r _ _ _ _ ih => exact runPipeline_congr_cons (.named r) ih cs
  | named hr _ _ ihbody ih =>
    rw [runPipeline_named hr, runPipeline_append, runPipeline_append, ihbody]
    congr 1
    funext cs
    exact ih cs

/-- The names of pipelines that a pipeline leads to. -/
noncomputable def reached (scope : Scope) (parts : List Part) : Finset Reference :=
  open Classical in (references scope).filter fun r => PartOf scope parts (.named r)

theorem mem_reached {parts : List Part} {r : Reference} {entity : Entity}
    (hr : scope.find? r.name = some entity) :
    r ∈ reached scope parts ↔ PartOf scope parts (.named r) := by
  simp [reached, mem_references hr]

theorem reached_mono {parts parts' : List Part}
    (h : ∀ r, PartOf scope parts (.named r) → PartOf scope parts' (.named r)) :
    reached scope parts ⊆ reached scope parts' := by
  intro r hr
  simp only [reached, Finset.mem_filter] at hr ⊢
  exact ⟨hr.1, h r hr.2⟩

/-- The body of a pipeline leads to fewer names than the pipeline. -/
theorem reached_body {parts body : List Part} {r : Reference} (h : Acyclic scope parts)
    (outer : PartOf scope parts (.named r)) (hr : scope.find? r.name = some (.pipeline body)) :
    reached scope (oriented r body) ⊂ reached scope parts := by
  have hsub : ∀ r', PartOf scope (oriented r body) (.named r') → PartOf scope body (.named r') :=
    fun _ hr' => hr'.mono (oriented_subset r body)
  refine (Finset.ssubset_iff_of_subset ?_).mpr ⟨r, (mem_reached hr).mpr outer, ?_⟩
  · exact reached_mono fun r' hr' => (hsub r' hr').of_body outer hr
  · intro hmem
    exact h r body outer hr r (hsub r ((mem_reached hr).mp hmem)) rfl

theorem exists_inlines_of_body {parts : List Part}
    (hbody : ∀ r body, .named r ∈ parts → scope.find? r.name = some (.pipeline body) →
      ∃ inner, Inlines scope (oriented r body) inner) : ∃ flat, Inlines scope parts flat := by
  induction parts with
  | nil => exact ⟨[], .nil⟩
  | cons part parts ih =>
    obtain ⟨flat, hflat⟩ := ih fun r body hr => hbody r body (List.mem_cons_of_mem part hr)
    cases part using partCases scope with
    | gate call => exact ⟨_, .gate call hflat⟩
    | pipeline r body hr =>
      obtain ⟨inner, hinner⟩ := hbody r body List.mem_cons_self hr
      exact ⟨_, .named hr hinner hflat⟩
    | unresolved r hr => exact ⟨_, .unresolved hr hflat⟩

/-- Without cycles inlining comes to an end. -/
theorem Acyclic.exists_inlines {parts : List Part} (h : Acyclic scope parts) :
    ∃ flat, Inlines scope parts flat := by
  -- by induction on the number of names that the pipeline leads to
  induction hcard : (reached scope parts).card using Nat.strong_induction_on generalizing parts with
  | _ count ih =>
    subst hcard
    refine exists_inlines_of_body fun r body hmem hr => ?_
    have hless := Finset.card_lt_card (reached_body h (.direct hmem) hr)
    exact ih _ hless (h.of_body (.direct hmem) hr) rfl

/-- What inlining leaves are parts of the pipeline that stand for no other parts. -/
theorem Inlines.mem {parts flat : List Part} (h : Inlines scope parts flat) {part : Part}
    (hpart : part ∈ flat) : PartOf scope parts part ∧
      ∀ r body, part = .named r → scope.find? r.name ≠ some (.pipeline body) := by
  induction h with
  | nil => simp at hpart
  | gate call _ ih =>
    rcases List.mem_cons.mp hpart with rfl | hpart
    · exact ⟨.direct List.mem_cons_self, by simp⟩
    · exact ⟨(ih hpart).1.mono (List.subset_cons_self _ _), (ih hpart).2⟩
  | unresolved hr _ ih =>
    rcases List.mem_cons.mp hpart with rfl | hpart
    · refine ⟨.direct List.mem_cons_self, fun r body heq => ?_⟩
      cases heq
      exact hr body
    · exact ⟨(ih hpart).1.mono (List.subset_cons_self _ _), (ih hpart).2⟩
  | @named r body _ hr _ _ _ _ ihbody ih =>
    rcases List.mem_append.mp hpart with hpart | hpart
    · refine ⟨?_, (ihbody hpart).2⟩
      have hbody := (ihbody hpart).1.mono (oriented_subset r body)
      exact hbody.of_body (.direct List.mem_cons_self) hr
    · exact ⟨(ih hpart).1.mono (List.subset_cons_self _ _), (ih hpart).2⟩

theorem Inlines.exists_gates {parts flat : List Part} (h : Inlines scope parts flat)
    (hresolved : Resolved scope parts) : ∃ calls : List GateCall, calls.map .gate = flat := by
  have hgate : ∀ part ∈ flat, part ∈ Set.range Part.gate := by
    intro part hpart
    obtain ⟨hpartOf, hleft⟩ := h.mem hpart
    cases part with
    | gate call => exact ⟨call, rfl⟩
    | named r =>
      obtain ⟨body, hbody⟩ := hresolved r hpartOf
      exact absurd hbody (hleft r body rfl)
  rwa [← Set.mem_range, Set.range_list_map]

/-- Names are without cycles if every pipeline refers only to names of a lower rank, such as those
that are declared before it. -/
theorem acyclic_of_rank (rank : String → Nat)
    (h : ∀ name body r, (name, Entity.pipeline body) ∈ scope → .named r ∈ body →
      rank r.name < rank name) (parts : List Part) : Acyclic scope parts := by
  intro r body _ hr r' hr'
  have hlower : ∀ part, PartOf scope body part → ∀ r', part = .named r' →
      rank r'.name < rank r.name := by
    intro part hpart
    induction hpart with
    | direct hmem =>
      rintro r' rfl
      exact h r.name body r' (mem_of_find? hr) hmem
    | @inner s body' _ _ hs hmem ih =>
      rintro r' rfl
      have hbelow := h s.name body' r' (mem_of_find? hs) hmem
      have hs := ih s rfl
      omega
  intro heq
  have hless := hlower _ hr' r' rfl
  rw [heq] at hless
  exact absurd hless (Nat.lt_irrefl _)

end Inlining

/-- Named pipelines mean their bodies. A reference can be replaced by the parts of the pipeline, in
reverse if it is run backwards. Without cycles that leads to one flat pipeline, which is made of
gate calls if every name is that of a pipeline. -/
theorem runPipeline_inlined (scope : Scope) :
    (∀ (r : Reference) (body before after : List Part),
      scope.find? r.name = some (.pipeline body) → ∀ targets condition cs,
        runPipeline scope targets condition (before ++ [.named r] ++ after) cs =
          runPipeline scope targets condition
            (before ++ (if r.reversed then body.reverse else body) ++ after) cs) ∧
    ∀ parts, Acyclic scope parts → ∃ flat, (∀ flat', Inlines scope parts flat' ↔ flat' = flat) ∧
      (∀ targets condition cs, runPipeline scope targets condition parts cs =
        runPipeline scope targets condition flat cs) ∧
      (Resolved scope parts → ∃ calls : List GateCall, flat = calls.map .gate ∧
        ∀ targets condition cs, runPipeline scope targets condition parts cs =
          runEach (runCall makeBox scope targets condition) calls cs) := by
  refine ⟨fun r body before after hr targets condition cs => ?_, fun parts hacyclic => ?_⟩
  · rw [List.append_assoc, List.singleton_append]
    exact runPipeline_named_within hr targets condition before after cs
  · obtain ⟨flat, hflat⟩ := hacyclic.exists_inlines
    refine ⟨flat, fun flat' => ⟨fun h => h.unique hflat, fun h => h ▸ hflat⟩, hflat.run_eq, ?_⟩
    intro hresolved
    obtain ⟨calls, rfl⟩ := hflat.exists_gates hresolved
    refine ⟨calls, rfl, fun targets condition cs => ?_⟩
    rw [hflat.run_eq, runPipeline_gates]

/-- A pipeline that runs another one forwards and backwards. -/
def echoScope : Scope :=
  [("half", .pipeline [.gate ⟨"S", []⟩, .gate ⟨"X", []⟩]),
    ("echo", .pipeline [.named ⟨"half", false⟩, .gate ⟨"Z", []⟩, .named ⟨"half", true⟩])]

/-- The names of a pipeline that is run backwards are each run as they stand. -/
theorem runPipeline_inlined_echo :
    runPipeline echoScope ⟨[.default 0], []⟩ none [.named ⟨"echo", true⟩] ⟨.blank 1, []⟩ =
      runEach (runCall makeBox echoScope ⟨[.default 0], []⟩ none)
        [⟨"X", []⟩, ⟨"S", []⟩, ⟨"Z", []⟩, ⟨"S", []⟩, ⟨"X", []⟩] ⟨.blank 1, []⟩ := by
  have hrank : ∀ name body r, (name, Entity.pipeline body) ∈ echoScope → .named r ∈ body →
      (if r.name = "echo" then 1 else 0) < if name = "echo" then 1 else 0 := by
    intro name body r hmem hr
    simp only [echoScope, List.mem_cons, Prod.mk.injEq, Entity.pipeline.injEq] at hmem
    rcases hmem with ⟨rfl, rfl⟩ | ⟨rfl, rfl⟩ | hmem
    · simp at hr
    · rcases (by simpa using hr : r = ⟨"half", false⟩ ∨ r = ⟨"half", true⟩) with rfl | rfl <;> decide
    · simp at hmem
  obtain ⟨flat, hflat, hrun, -⟩ := (runPipeline_inlined echoScope).2 [.named ⟨"echo", true⟩]
    (acyclic_of_rank (fun name => if name = "echo" then 1 else 0) hrank _)
  have hback : Inlines echoScope [.gate ⟨"X", []⟩, .gate ⟨"S", []⟩]
      [.gate ⟨"X", []⟩, .gate ⟨"S", []⟩] := .gate _ (.gate _ .nil)
  have hforth : Inlines echoScope [.gate ⟨"S", []⟩, .gate ⟨"X", []⟩]
      [.gate ⟨"S", []⟩, .gate ⟨"X", []⟩] := .gate _ (.gate _ .nil)
  have hecho : Inlines echoScope [.named ⟨"echo", true⟩]
      (([.gate ⟨"X", []⟩, .gate ⟨"S", []⟩] ++
        .gate ⟨"Z", []⟩ :: ([.gate ⟨"S", []⟩, .gate ⟨"X", []⟩] ++ [])) ++ []) :=
    .named rfl (.named rfl hback (.gate _ (.named rfl hforth .nil))) .nil
  rw [hrun, ← (hflat _).mp hecho]
  exact runPipeline_gates _ _ [⟨"X", []⟩, ⟨"S", []⟩, ⟨"Z", []⟩, ⟨"S", []⟩, ⟨"X", []⟩] _

end GateScript.Lower
