import GateScript.Compile
import GateScript.Proofs.Lower.Outcome
import GateScript.Proofs.Program.Building
import GateScript.Proofs.Source.Joining
import GateScript.Proofs.Source.Trees

/-!
One program after the other.

Building carries the declared pipelines from statement to statement, but looks among them for bare
names only, and none is ever read. So a statement is built in the same way after others. Lowering
goes on from the names and the circuits that the first program leaves.
-/
namespace GateScript.Program

open Source (Token Item Statement)

section Building

variable {limit : Option Nat}

/-- A tree is built into the same, or refused in the same way, whatever is declared. -/
def Steady (limit : Option Nat) (t : Source.Tree Leaf) : Prop :=
  ∀ table table', (buildTree limit table t).result = (buildTree limit table' t).result

theorem Steady.absent : Steady limit .absent := fun _ _ => rfl

theorem Steady.leaf (t : Token) : Steady limit (.leaf (leafOf t)) := fun _ _ => rfl

theorem steady_buildTrees {ts : List (Source.Tree Leaf)} (h : ∀ t ∈ ts, Steady limit t)
    (table table' : PipelineTable) :
    (buildTrees limit table ts).result = (buildTrees limit table' ts).result := by
  induction ts generalizing table table' with
  | nil => rfl
  | cons t ts ih =>
    obtain ⟨hfirst, hrest⟩ := List.forall_mem_cons.mp h
    rw [result_buildTrees_cons, result_buildTrees_cons, hfirst table table',
      ih hrest _ (buildTree limit table' t).table]

/-- A node is steady if its children are and its rule is, given what they are built into. -/
theorem Steady.of_rule {rule : String} {ts : List (Source.Tree Leaf)}
    (h : ∀ t ∈ ts, Steady limit t)
    (hrule : ∀ vs, (∃ table, (buildTrees limit table ts).result = .ok vs) → ∀ table table',
      (buildRule limit table rule vs).map Prod.fst =
        (buildRule limit table' rule vs).map Prod.fst) : Steady limit (.node rule ts) := by
  intro table table'
  rw [result_buildTree_node, result_buildTree_node, steady_buildTrees h table table']
  cases hts : (buildTrees limit table' ts).result with
  | error e => rfl
  | ok vs => exact hrule vs ⟨table', hts⟩ _ _

theorem fst_map_pair (built : Except BuildError Value) (table : PipelineTable) :
    (built.map (·, table)).map Prod.fst = built := by
  cases built <;> rfl

/-- Only a pipeline looks at what is declared. -/
theorem buildRule_fst {rule : String} (h : rule ≠ "gate_pip") (table table' : PipelineTable)
    (vs : List Value) :
    (buildRule limit table rule vs).map Prod.fst =
      (buildRule limit table' rule vs).map Prod.fst := by
  unfold buildRule
  split
  case h_1 =>
    split
    · split <;> rfl
    all_goals rfl
  case h_2 =>
    split
    · rw [fst_map_pair, fst_map_pair]
    · rfl
  case h_7 => exact absurd rfl h
  case h_12 | h_13 | h_14 | h_18 => rfl
  all_goals rw [fst_map_pair, fst_map_pair]

theorem Steady.node (rule : String) (ts : List (Source.Tree Leaf)) (hne : rule ≠ "gate_pip")
    (h : ∀ t ∈ ts, Steady limit t) : Steady limit (.node rule ts) :=
  .of_rule h fun vs _ table table' => buildRule_fst hne table table' vs

theorem steady_pipeline (items : List Item)
    (h : ∀ item ∈ items, Steady limit (item.tree.map leafOf)) :
    Steady limit ((Source.pipelineTree items).map leafOf) := by
  refine .of_rule (Source.forall_mem_mapAll h) fun vs hvs table table' => ?_
  obtain ⟨before, hvs⟩ := hvs
  obtain ⟨parts, rfl⟩ := buildTrees_items_ok (congrArg (Built.mk · _) hvs)
  change ((buildPipeline table (parts.map Part.value)).map (·, table)).map Prod.fst =
    ((buildPipeline table' (parts.map Part.value)).map (·, table')).map Prod.fst
  rw [fst_map_pair, fst_map_pair, buildPipeline_parts, buildPipeline_parts]

theorem steady_statement (s : Statement) : Steady limit (s.tree.map leafOf) :=
  s.tree_induction Steady.absent Steady.leaf Steady.node steady_pipeline

end Building

section Nodes

variable {limit : Option Nat}

theorem buildTrees_append {ts ts' : List (Source.Tree Leaf)} {vs vs' : List Value}
    {table table₁ table₂ : PipelineTable} (h : buildTrees limit table ts = ⟨.ok vs, table₁⟩)
    (h' : buildTrees limit table₁ ts' = ⟨.ok vs', table₂⟩) :
    buildTrees limit table (ts ++ ts') = ⟨.ok (vs ++ vs'), table₂⟩ := by
  induction ts generalizing table vs with
  | nil =>
    cases h
    exact h'
  | cons t ts ih =>
    rw [buildTrees] at h
    split at h
    · cases h
    · rename_i v table₃ hfirst
      split at h
      · cases h
      · rename_i ws table₄ hrest
        cases h
        rw [List.cons_append, buildTrees, hfirst]
        dsimp only
        rw [ih hrest]
        rfl

theorem treesOf_eq (statements : List Statement) :
    treesOf statements = statements.map fun s => s.tree.map leafOf := by
  rw [treesOf, Source.Tree.mapAll_eq, List.map_map]
  rfl

theorem steady_treesOf (statements : List Statement) :
    ∀ t ∈ treesOf statements, Steady limit t :=
  Source.forall_mem_mapAll fun s _ => steady_statement s

/-- What is built after other statements is what would be built alone. -/
theorem nodesOf_append {statements statements' : List Statement} {nodes nodes' : List Node}
    (h : nodesOf limit statements = .ok nodes) (h' : nodesOf limit statements' = .ok nodes') :
    nodesOf limit (statements ++ statements') = .ok (nodes ++ nodes') := by
  obtain ⟨vs, table, hvs, rfl⟩ := nodesOf_eq_ok_iff_exists.mp h
  obtain ⟨vs', table', hvs', rfl⟩ := nodesOf_eq_ok_iff_exists.mp h'
  have hafter : (buildTrees limit table (treesOf statements')).result = .ok vs' := by
    rw [steady_buildTrees (steady_treesOf statements') table [], hvs']
  have happend : treesOf (statements ++ statements') = treesOf statements ++ treesOf statements' := by
    simp only [treesOf_eq, List.map_append]
  rw [nodesOf_eq_ok_iff_exists, happend]
  exact ⟨vs ++ vs', _, buildTrees_append hvs (congrArg (Built.mk · _) hafter),
    List.filterMap_append⟩

/-- Building does not look at where the tokens stand. -/
theorem nodesOf_map_down (lines : Nat) (statements : List Statement) :
    nodesOf limit (statements.map (Statement.map (Token.down lines))) =
      nodesOf limit statements := by
  have htrees : treesOf (statements.map (Statement.map (Token.down lines))) =
      treesOf statements := by
    rw [treesOf_eq, treesOf_eq, List.map_map]
    apply List.map_congr_left
    intro s _
    rw [Function.comp_apply, Source.Statement.tree_map, Source.Tree.map_map]
    rfl
  have hprogram : (Source.programTree (statements.map (Statement.map (Token.down lines)))).map
      leafOf = (Source.programTree statements).map leafOf :=
    congrArg (Source.Tree.node "start") htrees
  rw [nodesOf_def, nodesOf_def, hprogram]

end Nodes

end GateScript.Program

namespace GateScript

open Lower Program

/-- Two programs in one text, the second from a new line on, are the nodes of the one and then those
of the other. Lowering goes on with the second from the names and the circuits of the first. -/
theorem programs_joined {a b : String} {first second : List Node}
    (ha : nodesOfText a = .ok first) (hb : nodesOfText b = .ok second) :
    nodesOfText (a ++ "\n" ++ b) = .ok (first ++ second) ∧
      circuitsOfText (a ++ "\n" ++ b) =
        .ok (((runNodes first .initial).andThen (runNodes second)).map Progress.circuits) := by
  obtain ⟨statements, hparse, hnodes⟩ := nodesOfText_eq_ok_iff.mp ha
  obtain ⟨statements', hparse', hnodes'⟩ := nodesOfText_eq_ok_iff.mp hb
  have hjoined : nodesOfText (a ++ "\n" ++ b) = .ok (first ++ second) := by
    rw [nodesOfText_eq_ok_iff]
    refine ⟨_, Source.parse_join hparse hparse', nodesOf_append hnodes ?_⟩
    rw [nodesOf_map_down, hnodes']
  constructor
  · exact hjoined
  · rw [circuitsOfText, hjoined]
    simp only [Except.map, lower, runNodes, runEach_append]
    rfl

/-- The last branch could go on with `else`, which is only in the comment after it. -/
def openText : String := "step : H | X\r\nflag : b 0\n0 -> step if flag  # else\r"

def openProgram : List Node :=
  [.instruction "step" [.gate ⟨"H", []⟩, .gate ⟨"X", []⟩], .bit "flag" ⟨"c", 0⟩,
    .conditional (.index 0) "flag" [.named ⟨"step", false⟩] none]

/-- The first name starts with `else`, and the name of the pipeline is not declared here. -/
def elsewhereText : String := "\n\r\n elsewhere : q 1\nelsewhere -> step <-\n"

def elsewhereProgram : List Node :=
  [.qubit "elsewhere" ⟨"q", 1⟩,
    .action (.name "elsewhere") none (.parts [.named ⟨"step", true⟩])]

theorem programs_joined_open :
    nodesOfText openText = .ok openProgram ∧ nodesOfText elsewhereText = .ok elsewhereProgram ∧
      nodesOfText (openText ++ "\n" ++ elsewhereText) = .ok (openProgram ++ elsewhereProgram) ∧
      circuitsOfText (openText ++ "\n" ++ elsewhereText) =
        .ok (((runNodes openProgram .initial).andThen (runNodes elsewhereProgram)).map
          Progress.circuits) := by
  have hopen : nodesOfText openText = .ok openProgram := by decide +kernel
  have helsewhere : nodesOfText elsewhereText = .ok elsewhereProgram := by decide +kernel
  exact ⟨hopen, helsewhere, programs_joined hopen helsewhere⟩

end GateScript
