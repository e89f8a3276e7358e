import GateScript.Compile
import GateScript.Proofs.Lower.Stopping
import GateScript.Proofs.Lower.Termination
import GateScript.Proofs.Program.Numerals
import GateScript.Proofs.Program.Printing

/-!
Names that lead back to themselves.

Building looks for cycles among bare names only. A pipeline that was read holds references, which
are kept as they are, so no cycle is ever found in a program text. Lowering follows the references:
where it comes to a name on a cycle it fails at a part before the name comes round again, or it has
no end.
-/
namespace GateScript.Program

open Source (Token Operand Item Branch Statement)

section Building

variable {limit : Option Nat}

/-- No cycle was found. -/
def Uncyclic {α : Type} (result : Except BuildError α) : Prop := ∀ e, result ≠ .error (.cyclic e)

theorem Uncyclic.ok {α : Type} (a : α) : Uncyclic (.ok a) := by simp [Uncyclic]

/-- An error is passed on as it is. -/
theorem Uncyclic.error {α β : Type} {e : BuildError}
    (h : Uncyclic (.error e : Except BuildError α)) : Uncyclic (.error e : Except BuildError β) :=
  fun cycle heq => h cycle (congrArg _ (Except.error.inj heq))

theorem Uncyclic.map {α β : Type} {f : α → β} {result : Except BuildError α} (h : Uncyclic result) :
    Uncyclic (result.map f) := by
  cases result with
  | ok a => exact .ok (f a)
  | error e => exact h.error

theorem Uncyclic.bind {α β : Type} {f : α → Except BuildError β} {result : Except BuildError α}
    (h : Uncyclic result) (hf : ∀ a, Uncyclic (f a)) : Uncyclic (result.bind f) := by
  cases result with
  | ok a => exact hf a
  | error e => exact h.error

theorem uncyclic_buildNumber (text : String) : Uncyclic (buildNumber limit text) := by
  unfold buildNumber
  split <;> simp [Uncyclic]

theorem uncyclic_buildReference (v : Value) : Uncyclic (buildReference v) := by
  unfold buildReference
  split
  · split <;> simp [Uncyclic]
  · simp [Uncyclic]

theorem uncyclic_buildIndex (kind : UnitKind) (name v : Value) :
    Uncyclic (buildIndex kind name v) := by
  unfold buildIndex
  split
  · split <;> simp [Uncyclic]
  · simp [Uncyclic]

theorem uncyclic_buildUnit (kind : UnitKind) (vs : List Value) : Uncyclic (buildUnit kind vs) := by
  unfold buildUnit
  split
  any_goals exact (uncyclic_buildIndex kind _ _).map
  simp [Uncyclic]

theorem uncyclic_buildGate (vs : List Value) : Uncyclic (buildGate vs) := by
  unfold buildGate
  split
  case h_4 => split <;> simp [Uncyclic]
  all_goals simp [Uncyclic]

theorem uncyclic_buildNamed (vs : List Value) : Uncyclic (buildNamed vs) := by
  unfold buildNamed
  split
  any_goals
    split <;> simp [Uncyclic]
  simp [Uncyclic]

theorem uncyclic_whole {α : Type} (n : Number) (f : Int → α) :
    Uncyclic ((n.whole.map f).mapError .notWhole) := by
  cases n.whole <;> simp [Uncyclic, Except.map, Except.mapError]

theorem uncyclic_target (v : Value) : Uncyclic (Target.ofValue v) := by
  unfold Target.ofValue
  split
  · exact uncyclic_whole _ _
  all_goals
    split <;> simp [Uncyclic]

theorem uncyclic_count (v : Value) : Uncyclic (countOfValue v) := by
  unfold countOfValue
  split
  · exact .ok none
  · exact uncyclic_whole _ _
  · split <;> simp [Uncyclic]

theorem uncyclic_buildAction (vs : List Value) : Uncyclic (buildAction vs) := by
  unfold buildAction
  split
  case h_1 => exact (uncyclic_target _).bind fun _ => (uncyclic_count _).map
  all_goals simp [Uncyclic]

theorem uncyclic_buildBranch (vs : List Value) : Uncyclic (buildBranch vs) := by
  unfold buildBranch
  split <;> simp [Uncyclic]

theorem uncyclic_buildConditional (vs : List Value) : Uncyclic (buildConditional vs) := by
  unfold buildConditional
  split
  · refine (uncyclic_target _).bind fun target => ?_
    split <;> simp [Uncyclic]
  · simp [Uncyclic]

theorem uncyclic_buildList (vs : List Value) : Uncyclic (buildList vs) := by
  unfold buildList
  split
  case h_1 => split <;> simp [Uncyclic]
  all_goals simp [Uncyclic]

theorem uncyclic_firstChild (vs : List Value) : Uncyclic (firstChild vs) := by
  cases vs <;> simp [Uncyclic, firstChild]

/-- Only a pipeline looks for cycles. -/
theorem uncyclic_buildRule {rule : String} (h : rule ≠ "gate_pip") (table : PipelineTable)
    (vs : List Value) : Uncyclic (buildRule limit table rule vs) := by
  unfold buildRule
  split
  case h_1 =>
    split
    · split <;> simp [Uncyclic]
    all_goals simp [Uncyclic]
  case h_2 =>
    split
    · exact (uncyclic_buildReference _).map
    · simp [Uncyclic]
  case h_3 => exact (uncyclic_buildUnit .qubit vs).map
  case h_4 => exact (uncyclic_buildUnit .bit vs).map
  case h_5 => exact (uncyclic_buildList vs).map
  case h_6 => exact (uncyclic_buildGate vs).map
  case h_7 => exact absurd rfl h
  case h_8 => exact (uncyclic_buildNamed vs).map
  case h_9 => exact (uncyclic_buildAction vs).map
  case h_10 => exact (uncyclic_buildBranch vs).map
  case h_11 => exact (uncyclic_buildConditional vs).map
  case h_15 | h_16 => exact (uncyclic_firstChild vs).map
  case h_17 => exact (uncyclic_buildNumber _).map
  all_goals exact .ok _

end Building

section Trees

variable {limit : Option Nat}

/-- However a tree is built, no cycle is found in it. -/
def Clear (limit : Option Nat) (t : Source.Tree Leaf) : Prop :=
  ∀ table, Uncyclic (buildTree limit table t).result

theorem Clear.absent : Clear limit .absent := fun _ => .ok _

theorem Clear.leaf (t : Token) : Clear limit (.leaf (leafOf t)) := by
  intro table
  rw [buildTree, leafOf]
  unfold Leaf.build
  split
  · exact uncyclic_buildNumber _
  all_goals exact .ok _

theorem uncyclic_buildTrees {ts : List (Source.Tree Leaf)} (h : ∀ t ∈ ts, Clear limit t)
    (table : PipelineTable) : Uncyclic (buildTrees limit table ts).result := by
  induction ts generalizing table with
  | nil => exact .ok _
  | cons t ts ih =>
    have hfirst := h t List.mem_cons_self table
    rw [buildTrees]
    split
    · rename_i e table' ht
      rw [ht] at hfirst
      exact hfirst.error
    · rename_i v table' ht
      have hrest := ih (fun t ht => h t (List.mem_cons_of_mem _ ht)) table'
      split
      · rename_i e table'' hts
        rw [hts] at hrest
        exact hrest.error
      · exact .ok _

/-- A node is clear if its children are and its rule is, given what they are built into. -/
theorem Clear.of_rule {rule : String} {ts : List (Source.Tree Leaf)} (h : ∀ t ∈ ts, Clear limit t)
    (hrule : ∀ table table' vs, buildTrees limit table ts = ⟨.ok vs, table'⟩ →
      Uncyclic (buildRule limit table' rule vs)) : Clear limit (.node rule ts) := by
  intro table
  have hts := uncyclic_buildTrees h table
  rw [buildTree]
  split
  · rename_i e table' heq
    rw [heq] at hts
    exact hts.error
  · rename_i vs table' heq
    have hrule := hrule table table' vs heq
    split
    · rename_i e herror
      rw [herror] at hrule
      exact hrule.error
    · exact .ok _

theorem Clear.node (rule : String) (ts : List (Source.Tree Leaf)) (hne : rule ≠ "gate_pip")
    (h : ∀ t ∈ ts, Clear limit t) : Clear limit (.node rule ts) :=
  .of_rule h fun _ table' vs _ => uncyclic_buildRule hne table' vs

/-- A pipeline that was read is kept as it stands. -/
theorem clear_pipeline (items : List Item)
    (h : ∀ item ∈ items, Clear limit (item.tree.map leafOf)) :
    Clear limit ((Source.pipelineTree items).map leafOf) := by
  refine .of_rule (Source.forall_mem_mapAll h) fun table table' vs hvs => ?_
  obtain ⟨parts, rfl⟩ := buildTrees_items_ok hvs
  change Uncyclic ((buildPipeline table' (parts.map Part.value)).map (·, table'))
  rw [buildPipeline_parts]
  exact .ok _

theorem clear_statement (s : Statement) : Clear limit (s.tree.map leafOf) :=
  s.tree_induction Clear.absent Clear.leaf Clear.node clear_pipeline

theorem uncyclic_nodesOf (limit : Option Nat) (statements : List Statement) :
    Uncyclic (nodesOf limit statements) := by
  have hclear : Clear limit ((Source.programTree statements).map leafOf) :=
    .node _ _ (by decide) (Source.forall_mem_mapAll fun s _ => clear_statement s)
  have htree := hclear []
  rw [nodesOf_def]
  split
  · rename_i e herror
    rw [herror] at htree
    exact htree.error
  all_goals exact .ok _

end Trees

end GateScript.Program

namespace GateScript.Lower

open Program Outcome Config

section Lowering

variable {nodes : List Node} {scope : Scope} {parts : List Part}

/-- Lowering comes to run parts while `scope` is declared: those of an action whose target and
instruction are known and that has a round to run, or those of the branches of a conditional action
for one qubit. -/
inductive Performs (nodes : List Node) : Scope → List Part → Prop where
  | action {p : Progress} {todo : List Task} {target : Target} {count : Option Int}
      {instruction : Instruction} {entities : List Entity} {parts : List Part}
      (hreach : Reaches (start nodes)
        (working p (.node (.action target count instruction) :: todo)))
      (htarget : resolveTarget p.scope p.circuits.main target = .ok entities)
      (hparts : resolveInstruction p.scope instruction = .ok parts) (hrounds : rounds count ≠ 0) :
      Performs nodes p.scope parts
  | branches {p : Progress} {todo : List Task} {bit : Bit} {ifParts : List Part}
      {elseParts : Option (List Part)} {q : Qubit}
      (hreach : Reaches (start nodes)
        (working p (.branches bit ifParts elseParts (.qubit q) :: todo))) :
      Performs nodes p.scope (ifParts ++ elseParts.getD [])

theorem lower_eq_of_reaches {p : Progress} {task : Task} {todo : List Task}
    (h : Reaches (start nodes) (working p (task :: todo))) :
    lower nodes = ((task.run p).andThen (runEach Task.run todo)).map Progress.circuits := by
  obtain ⟨n, hn⟩ := h
  rw [lower_eq_map_finish, ← finish_iterate n, hn]
  rfl

theorem runPipeline_ne_done {r : Reference} (hpart : PartOf scope parts (.named r))
    (hr : Recurs scope r.name) (targets : Targets) (condition : Option Condition)
    (cs cs' : Circuits) : runPipeline scope targets condition parts cs ≠ done cs' := fun hrun =>
  not_executes_done makeBox_regular hpart hr
    ((executes_iff makeBox_regular).mpr ⟨by simp, hrun⟩)

theorem PartOf.of_append {parts' : List Part} {part : Part}
    (h : PartOf scope (parts ++ parts') part) :
    PartOf scope parts part ∨ PartOf scope parts' part := by
  induction h with
  | direct h => exact (List.mem_append.mp h).imp .direct .direct
  | inner _ hr h ih => exact ih.imp (.inner · hr h) (.inner · hr h)

/-- A program that runs parts which lead to a name on a cycle is never done. -/
theorem Performs.lower_ne_done (h : Performs nodes scope parts) {r : Reference}
    (hpart : PartOf scope parts (.named r)) (hr : Recurs scope r.name) (cs : Circuits) :
    lower nodes ≠ done cs := by
  cases h with
  | @action p todo target count instruction entities parts hreach htarget hparts hrounds =>
    obtain ⟨n, hn⟩ := Nat.exists_eq_succ_of_ne_zero hrounds
    have hrun : (Task.node (.action target count instruction)).run p =
        (runTimes (runPipeline p.scope (.ofEntities entities) none parts) (n + 1) p.circuits).map
          fun circuits => { p with circuits } := by
      simp only [Task.run, runNode, runAction, htarget, hparts, hn]
    rw [lower_eq_of_reaches hreach, hrun, runTimes]
    cases hfirst : runPipeline p.scope (.ofEntities entities) none parts p.circuits with
    | done cs' => exact absurd hfirst (runPipeline_ne_done hpart hr _ _ _ _)
    | failed e cs' => simp
    | endless => simp
  | @branches p todo bit ifParts elseParts q hreach =>
    have hrun : (Task.branches bit ifParts elseParts (.qubit q)).run p =
        ((runPipeline p.scope ⟨[q], []⟩ (some ⟨bit, true⟩) ifParts
          { p.circuits with main := p.circuits.main.ensureQubit q }).andThen
          (runPipeline p.scope ⟨[q], []⟩ (some ⟨bit, false⟩) (elseParts.getD []))).map
            (Progress.mk p.scope) := by
      rw [Task.run, runBranches_qubit, ← runPipeline_eq_runEach,
        ← funext (runPipeline_eq_runEach _ _ _)]
    rw [lower_eq_of_reaches hreach, hrun]
    cases hif : runPipeline p.scope ⟨[q], []⟩ (some ⟨bit, true⟩) ifParts
        { p.circuits with main := p.circuits.main.ensureQubit q } with
    | failed e cs' => simp
    | endless => simp
    | done cs₁ =>
      rw [andThen_done]
      cases helse : runPipeline p.scope ⟨[q], []⟩ (some ⟨bit, false⟩) (elseParts.getD []) cs₁ with
      | failed e cs' => simp
      | endless => simp
      | done cs₂ =>
        rcases hpart.of_append with hpart | hpart
        · exact absurd hif (runPipeline_ne_done hpart hr _ _ _ _)
        · exact absurd helse (runPipeline_ne_done hpart hr _ _ _ _)

end Lowering

end GateScript.Lower

namespace GateScript

open Program Lower Lower.Config

theorem nodesOfText_ne_cyclic (text : String) (e : CyclicReference) :
    nodesOfText text ≠ .error (.build (.cyclic e)) := by
  rw [nodesOfText]
  split
  · simp
  · rename_i statements _
    have hnodes := uncyclic_nodesOf Decimal.digitLimit statements
    split
    · rename_i e' herror
      rw [herror] at hnodes
      exact fun heq => hnodes e (by rw [TextError.build.inj (Except.error.inj heq)])
    · simp

/-- A cycle is never reported. A program that comes to run parts which lead to a name on a cycle
fails for another reason, or is run without end. -/
theorem cycles_unreported (text : String) :
    (∀ e, nodesOfText text ≠ .error (.build (.cyclic e))) ∧
    ∀ nodes scope parts r, nodesOfText text = .ok nodes → Performs nodes scope parts →
      PartOf scope parts (.named r) → Recurs scope r.name →
      (∃ e cs, circuitsOfText text = .ok (.failed e cs)) ∨ circuitsOfText text = .ok .endless := by
  refine ⟨nodesOfText_ne_cyclic text, fun nodes scope parts r hnodes hperforms hpart hr => ?_⟩
  have hcircuits : circuitsOfText text = .ok (lower nodes) := by
    rw [circuitsOfText, hnodes]
    rfl
  rw [hcircuits]
  cases hlower : lower nodes with
  | done cs => exact absurd hlower (hperforms.lower_ne_done hpart hr cs)
  | failed e cs => exact .inl ⟨e, cs, rfl⟩
  | endless => exact .inr rfl

/-- Two pipelines that lead to each other, the one by way of a gate that there is not, and a
conditional action that runs the other if a bit is not set. -/
def haltingProgram : List Node :=
  [.bit "flag" ⟨"c", 0⟩, .instruction "there" [.named ⟨"back", true⟩],
    .instruction "back" [.named ⟨"there", false⟩, .gate ⟨"NONE", []⟩],
    .conditional (.index 0) "flag" [.gate ⟨"X", []⟩] (some [.named ⟨"there", false⟩])]

def haltingScope : Scope :=
  [("back", .pipeline [.named ⟨"there", false⟩, .gate ⟨"NONE", []⟩]),
    ("there", .pipeline [.named ⟨"back", true⟩]), ("flag", .bit ⟨"c", 0⟩)]

theorem cycles_unreported_halting :
    nodesOfText (render haltingProgram) = .ok haltingProgram ∧
    Performs haltingProgram haltingScope [.gate ⟨"X", []⟩, .named ⟨"there", false⟩] ∧
    Recurs haltingScope "there" ∧
    ∃ e cs, circuitsOfText (render haltingProgram) = .ok (.failed e cs) := by
  have hnodes : nodesOfText (render haltingProgram) = .ok haltingProgram := by decide +kernel
  have hreach : Reaches (start haltingProgram)
      (working ⟨haltingScope, ⟨(Circuit.blank 0).ensureBit ⟨"c", 0⟩, []⟩⟩
        [.branches ⟨"c", 0⟩ [.gate ⟨"X", []⟩] (some [.named ⟨"there", false⟩])
          (.qubit (.default 0))]) := ⟨4, rfl⟩
  have hperforms : Performs haltingProgram haltingScope
      [.gate ⟨"X", []⟩, .named ⟨"there", false⟩] := .branches hreach
  have hrecurs : Recurs haltingScope "there" :=
    ⟨_, ⟨"there", false⟩, rfl, .inner (.direct (.head _)) rfl (.head _), rfl⟩
  refine ⟨hnodes, hperforms, hrecurs, ?_⟩
  have hcircuits := (cycles_unreported (render haltingProgram)).2 haltingProgram haltingScope _ _
    hnodes hperforms (.direct (.tail _ (.head _))) hrecurs
  rcases hcircuits with hfailed | hendless
  · exact hfailed
  · rw [circuitsOfText, hnodes] at hendless
    exact absurd (Except.ok.inj hendless) (by decide)

/-- A pipeline that is only itself, and an action that runs it. -/
def loopingProgram : List Node :=
  [.instruction "a" [.named ⟨"a", false⟩], .action (.index 0) none (.parts [.named ⟨"a", false⟩])]

/-- The shortest cycle is run without end. -/
theorem circuitsOfText_looping :
    render loopingProgram = "a : a\n0 -> a" ∧
    nodesOfText "a : a\n0 -> a" = .ok loopingProgram ∧
    Performs loopingProgram [("a", .pipeline [.named ⟨"a", false⟩])] [.named ⟨"a", false⟩] ∧
    Recurs [("a", .pipeline [.named ⟨"a", false⟩])] "a" ∧
    circuitsOfText "a : a\n0 -> a" = .ok .endless := by
  have hrender : render loopingProgram = "a : a\n0 -> a" := by decide
  have hnodes : nodesOfText "a : a\n0 -> a" = .ok loopingProgram := by decide +kernel
  have hreach : Reaches (start loopingProgram)
      (working ⟨[("a", .pipeline [.named ⟨"a", false⟩])], ⟨.blank 0, []⟩⟩
        [.node (.action (.index 0) none (.parts [.named ⟨"a", false⟩]))]) := ⟨1, rfl⟩
  refine ⟨hrender, hnodes, .action hreach rfl rfl (by decide), ?_, ?_⟩
  · exact ⟨_, ⟨"a", false⟩, rfl, .direct (.head _), rfl⟩
  · have hlower : lower loopingProgram = .endless := by decide
    rw [circuitsOfText, hnodes, ← hlower]
    rfl

end GateScript
