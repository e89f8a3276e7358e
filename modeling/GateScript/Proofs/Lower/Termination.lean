import GateScript.Proofs.Lower.Execution

/-!
When running a pipeline ends.

Without cycles among the names that a pipeline leads to, inlining leaves parts that each end. With
a cycle a run that is done would come to the name again and again, each time one level deeper, so
it is never done.
-/
namespace GateScript.Lower

open Program Outcome

section Cycles

/-- The pipeline of a name leads back to the name. -/
def Recurs (scope : Scope) (name : String) : Prop :=
  ∃ body r, scope.find? name = some (.pipeline body) ∧ PartOf scope body (.named r) ∧ r.name = name

/-- Parts are without cycles exactly if they lead to no name on one. -/
theorem acyclic_iff {scope : Scope} {parts : List Part} :
    Acyclic scope parts ↔ ∀ r, PartOf scope parts (.named r) → ¬Recurs scope r.name := by
  constructor
  · rintro h r hr ⟨body, r', hbody, hr', hname⟩
    exact h r body hr hbody r' hr' hname
  · intro h r body hr hbody r' hr' hname
    exact h r hr ⟨body, r', hbody, hr', hname⟩

variable {scope : Scope} {targets : Targets} {condition : Option Condition} {parts : List Part}
  {cs : Circuits}

theorem Acyclic.runPipeline_ne_endless (h : Acyclic scope parts) (targets : Targets)
    (condition : Option Condition) (cs : Circuits) :
    runPipeline scope targets condition parts cs ≠ endless := by
  obtain ⟨flat, hflat⟩ := h.exists_inlines
  rw [hflat.run_eq, runPipeline_eq_runEach]
  refine runEach_ne_endless (fun part hpart cs => ?_) cs
  exact runPart_ne_endless makeBox_regular (hflat.mem hpart).2 targets condition cs

/-- A reference to a name on a cycle is met again below itself if it is ever done. -/
theorem Executes.comes_again {box : BoxMaker} (hbox : box.Regular) {r : Reference}
    {rest : List Part} {cs' : Circuits} (hr : Recurs scope r.name)
    (h : Executes box scope targets condition (.named r :: rest) cs (.done cs')) :
    ∃ depth r' rest' cs₁, 0 < depth ∧ Recurs scope r'.name ∧
      Comes box scope targets condition (.named r :: rest) cs depth (.named r' :: rest') cs₁ := by
  obtain ⟨body, r', hbody, hr', hname⟩ := id hr
  obtain ⟨cs₁, hexec⟩ := h.body hbody
  have horiented : PartOf scope (oriented r body) (.named r') :=
    hr'.mono fun _ => mem_oriented.mpr
  obtain ⟨depth, rest', cs₂, hcomes⟩ := hexec.comes_partOf hbox horiented
  exact ⟨depth + 1, r', rest', cs₂, Nat.succ_pos depth, hname ▸ hr, .opens hbody hcomes⟩

/-- A pipeline that leads to a name on a cycle is never done. -/
theorem not_executes_done {box : BoxMaker} (hbox : box.Regular) {r : Reference}
    (hpart : PartOf scope parts (.named r)) (hr : Recurs scope r.name) {cs' : Circuits}
    (h : Executes box scope targets condition parts cs (.done cs')) : False := by
  obtain ⟨depth, rest, cs₁, hcomes⟩ := h.comes_partOf hbox hpart
  -- every turn of the cycle is at least one level deeper than the one before
  have hdeep : ∀ n, ∃ depth r rest cs₁, n ≤ depth ∧ Recurs scope r.name ∧
      Comes box scope targets condition parts cs depth (.named r :: rest) cs₁ := by
    intro n
    induction n with
    | zero => exact ⟨depth, r, rest, cs₁, Nat.zero_le _, hr, hcomes⟩
    | succ n ih =>
      obtain ⟨depth, r, rest, cs₁, hn, hr, hcomes⟩ := ih
      obtain ⟨cs₂, hexec⟩ := hcomes.executes hbox h
      obtain ⟨depth', r', rest', cs₃, hpos, hr', hagain⟩ := hexec.comes_again hbox hr
      exact ⟨depth + depth', r', rest', cs₃, by omega, hr', hcomes.trans hagain⟩
  obtain ⟨bound, hbound⟩ := h.exists_bound hbox
  obtain ⟨depth, r, rest, cs₁, hle, -, hcomes⟩ := hdeep (bound + 1)
  exact absurd (hbound _ _ _ hcomes) (by omega)

end Cycles

/-- Running a pipeline ends if no name that it leads to leads back to itself. If one does, the run
is never done: it fails at a part that it comes to first, or recurses without end. The bodies of
boxes always end. -/
theorem execution_terminates (scope : Scope) (targets : Targets) (condition : Option Condition)
    (parts : List Part) (cs : Circuits) :
    (∀ o, Executes makeBox scope targets condition parts cs o ↔
      o ≠ endless ∧ runPipeline scope targets condition parts cs = o) ∧
    (Descends makeBox scope targets condition parts cs ↔
      runPipeline scope targets condition parts cs = endless) ∧
    (Acyclic scope parts → ∃ o, Executes makeBox scope targets condition parts cs o) ∧
    (∀ r, PartOf scope parts (.named r) → Recurs scope r.name →
      (∀ cs', ¬Executes makeBox scope targets condition parts cs (.done cs')) ∧
      ((∃ e cs', Executes makeBox scope targets condition parts cs (.failed e cs') ∧
          FailsAt makeBox scope targets condition parts cs e cs') ∨
        Descends makeBox scope targets condition parts cs)) ∧
    ∀ body width, ∃ o, runBody body width = o ∧
      Executes noBox [] ⟨[.default 0], []⟩ none body ⟨.blank width, []⟩ o := by
  have hexecutes : ∀ o, Executes makeBox scope targets condition parts cs o ↔
      o ≠ endless ∧ runPipeline scope targets condition parts cs = o :=
    fun _ => executes_iff makeBox_regular
  have hdescends : Descends makeBox scope targets condition parts cs ↔
      runPipeline scope targets condition parts cs = endless := descends_iff makeBox_regular
  refine ⟨hexecutes, hdescends, fun hacyclic => ?_, fun r hpart hr => ?_, fun body width => ?_⟩
  · exact ⟨_, (hexecutes _).mpr ⟨hacyclic.runPipeline_ne_endless targets condition cs, rfl⟩⟩
  · have hnever : ∀ cs', ¬Executes makeBox scope targets condition parts cs (.done cs') :=
      fun _ => not_executes_done makeBox_regular hpart hr
    refine ⟨hnever, ?_⟩
    cases hrun : runPipeline scope targets condition parts cs with
    | done cs' => exact absurd ((hexecutes _).mpr ⟨by simp, hrun⟩) (hnever cs')
    | failed e cs' =>
      have hfails := (hexecutes (.failed e cs')).mpr ⟨by simp, hrun⟩
      exact .inl ⟨e, cs', hfails, hfails.failsAt⟩
    | endless => exact .inr (hdescends.mpr hrun)
  · exact ⟨_, rfl, (executes_iff noBox_regular).mpr ⟨runBody_ne_endless body width, rfl⟩⟩

/-- A pipeline that runs another one twice. -/
def twiceScope : Scope :=
  [("once", .pipeline [.gate ⟨"S", []⟩]),
    ("twice", .pipeline [.named ⟨"once", false⟩, .named ⟨"once", true⟩])]

/-- A pipeline that runs itself backwards after a gate, and one that would run itself after a gate
that there is not. -/
def turningScope : Scope :=
  [("turn", .pipeline [.gate ⟨"H", []⟩, .named ⟨"turn", true⟩]),
    ("halt", .pipeline [.gate ⟨"NONE", []⟩, .named ⟨"halt", false⟩])]

theorem acyclic_twiceScope (parts : List Part) : Acyclic twiceScope parts := by
  refine acyclic_of_rank (fun name => if name = "twice" then 1 else 0) ?_ parts
  intro name body r hmem hr
  simp only [twiceScope, List.mem_cons, Prod.mk.injEq, Entity.pipeline.injEq] at hmem
  rcases hmem with ⟨rfl, rfl⟩ | ⟨rfl, rfl⟩ | hmem
  · simp at hr
  · have hname : r.name = "once" := by
      rcases (by simpa using hr : r = ⟨"once", false⟩ ∨ r = ⟨"once", true⟩) with rfl | rfl <;> rfl
    simp [hname]
  · simp at hmem

theorem execution_terminates_turning :
    (∃ o, Executes makeBox twiceScope ⟨[.default 0], []⟩ none [.named ⟨"twice", false⟩]
      ⟨.blank 1, []⟩ o) ∧
    (∀ cs, ¬Executes makeBox turningScope ⟨[.default 0], []⟩ none [.named ⟨"turn", false⟩]
      ⟨.blank 1, []⟩ (.done cs)) ∧
    Descends makeBox turningScope ⟨[.default 0], []⟩ none [.named ⟨"turn", false⟩]
      ⟨.blank 1, []⟩ ∧
    ∃ e cs, FailsAt makeBox turningScope ⟨[.default 0], []⟩ none [.named ⟨"halt", false⟩]
      ⟨.blank 1, []⟩ e cs := by
  have hturn : Recurs turningScope "turn" :=
    ⟨_, ⟨"turn", true⟩, rfl, .direct (.tail _ (.head _)), rfl⟩
  have hhalt : Recurs turningScope "halt" :=
    ⟨_, ⟨"halt", false⟩, rfl, .direct (.tail _ (.head _)), rfl⟩
  obtain ⟨-, -, hends, -⟩ := execution_terminates twiceScope ⟨[.default 0], []⟩ none
    [.named ⟨"twice", false⟩] ⟨.blank 1, []⟩
  obtain ⟨-, hdescends, -, hcycle, -⟩ := execution_terminates turningScope ⟨[.default 0], []⟩ none
    [.named ⟨"turn", false⟩] ⟨.blank 1, []⟩
  obtain ⟨-, hdescends', -, hcycle', -⟩ := execution_terminates turningScope ⟨[.default 0], []⟩
    none [.named ⟨"halt", false⟩] ⟨.blank 1, []⟩
  refine ⟨hends (acyclic_twiceScope _), (hcycle _ (.direct (.head _)) hturn).1,
    hdescends.mpr (by decide), ?_⟩
  rcases (hcycle' _ (.direct (.head _)) hhalt).2 with ⟨e, cs, -, hfails⟩ | hforever
  · exact ⟨e, cs, hfails⟩
  · exact absurd (hdescends'.mp hforever) (by decide)

end GateScript.Lower
