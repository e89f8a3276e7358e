import GateScript.Proofs.Lower.QubitForms
import GateScript.Proofs.Program.Joining
import GateScript.Proofs.Source.QubitWord
import Mathlib.Logic.Relation

/-!
The forms of a reference to a qubit.

The word `q` before an integer is built into the integer, so a text with it and one without it have
the same nodes. And in the nodes the integer `n` stands for the same qubit as a name that is bound
to it, so lowering records the same for both.
-/
namespace GateScript

namespace Program

open Source (Token Terminal Operand Item Branch Statement IsDigits)

section Building

/-- Trees that are built into the same, or refused in the same way, whatever is declared. -/
def SameBuild (t t' : Source.Tree Leaf) : Prop :=
  ∀ limit table, buildTree limit table t' = buildTree limit table t

theorem SameBuild.absent : SameBuild .absent .absent := fun _ _ => rfl

theorem buildTrees_sameBuild {ts ts' : List (Source.Tree Leaf)}
    (h : List.Forall₂ SameBuild ts ts') (limit : Option Nat) (table : PipelineTable) :
    buildTrees limit table ts' = buildTrees limit table ts := by
  induction h generalizing table with
  | nil => rfl
  | cons hfirst _ ih => simp only [buildTrees, hfirst limit table, ih]

theorem SameBuild.node {rule : String} {ts ts' : List (Source.Tree Leaf)}
    (h : List.Forall₂ SameBuild ts ts') : SameBuild (.node rule ts) (.node rule ts') := by
  intro limit table
  simp only [buildTree, buildTrees_sameBuild h]

theorem sameBuild_token {t t' : Token} (h : t.SameText t') :
    SameBuild (.leaf (leafOf t)) (.leaf (leafOf t')) := by
  intro limit table
  rw [leafOf, leafOf, h.1, h.2]

/-- Digits are read as a natural number or not at all. -/
theorem buildNumber_digits {s : String} (h : IsDigits s.toList) (limit : Option Nat) :
    (∃ n : Nat, buildNumber limit s = .ok (.number (.int n))) ∨
      ∃ e, buildNumber limit s = .error e := by
  have hpoint : '.' ∉ s.toList := h.not_mem (by decide)
  have hread := Decimal.readInteger_digits limit h.1 h.2
  cases hmost : limit.filter (· < s.toList.length) with
  | none =>
    left
    exact ⟨Decimal.ofDigits (Decimal.digitsIn s.toList),
      by simp [buildNumber, Number.read, hpoint, hread, hmost]⟩
  | some most =>
    right
    exact ⟨.tooManyDigits s.toList.length most,
      by simp [buildNumber, Number.read, hpoint, hread, hmost]⟩

/-- The word `q` before an integer is built into the integer. -/
theorem sameBuild_word {t t' : Token} (h : t.SameText t') (ht : t.terminal = .number)
    (hdigits : IsDigits t.text.toList) :
    SameBuild (.leaf (leafOf t)) (.node "qubit_ref" [.leaf (leafOf t')]) := by
  intro limit table
  have hleaf : leafOf t = .token "NUMBER" t.text := by
    rw [leafOf, ht]
    rfl
  have hleaf' : leafOf t' = .token "NUMBER" t.text := by
    rw [leafOf, h.1, h.2, ht]
    rfl
  rw [hleaf, hleaf']
  have hbuild : (Leaf.token "NUMBER" t.text).build limit = buildNumber limit t.text := rfl
  have hrule (v : Value) : buildRule limit table "qubit_ref" [v] =
      (buildReference v).map (·, table) := rfl
  simp only [buildTree, buildTrees, hbuild]
  rcases buildNumber_digits hdigits limit with ⟨n, hn⟩ | ⟨e, he⟩
  · have hreference : buildReference (.number (.int n)) = .ok (.number (.int n)) := by
      rw [buildReference, if_neg (by omega)]
    simp only [hn, hrule, hreference]
    rfl
  · simp only [he]

theorem sameBuild_operand {o o' : Operand} (h : o.Reworded o') :
    SameBuild (o.tree.map leafOf) (o'.tree.map leafOf) := by
  cases h with
  | name h => exact sameBuild_token h
  | number h => exact sameBuild_token h
  | qubit h => exact .node (.cons (sameBuild_token h) .nil)
  | word h ht hdigits => exact sameBuild_word h ht hdigits

theorem sameBuild_mapAll {α : Type} {related : α → α → Prop} (tree : α → Source.Tree Token)
    (hbuild : ∀ a a', related a a' → SameBuild ((tree a).map leafOf) ((tree a').map leafOf))
    {as as' : List α} (h : List.Forall₂ related as as') :
    List.Forall₂ SameBuild (Source.Tree.mapAll leafOf (as.map tree))
      (Source.Tree.mapAll leafOf (as'.map tree)) := by
  induction h with
  | nil => exact .nil
  | cons hfirst _ ih => exact .cons (hbuild _ _ hfirst) ih

theorem sameBuild_operands (rule : String) {operands operands' : List Operand}
    (h : List.Forall₂ Operand.Reworded operands operands') :
    SameBuild ((Source.Tree.node rule (operands.map Operand.tree)).map leafOf)
      ((Source.Tree.node rule (operands'.map Operand.tree)).map leafOf) :=
  .node (sameBuild_mapAll Operand.tree (fun _ _ => sameBuild_operand) h)

theorem sameBuild_ofOption {t t' : Option Token} (h : Option.Rel Token.SameText t t') :
    SameBuild ((Source.Tree.ofOption t).map leafOf) ((Source.Tree.ofOption t').map leafOf) := by
  cases h with
  | none => exact .absent
  | some h => exact sameBuild_token h

theorem sameBuild_item {item item' : Item} (h : Source.reworded.Items item item') :
    SameBuild (item.tree.map leafOf) (item'.tree.map leafOf) := by
  cases h with
  | gate hname hargs =>
    have hoperands := sameBuild_operands "args" hargs
    cases hargs with
    | nil => exact .node (.cons (sameBuild_token hname) (.cons .absent .nil))
    | cons => exact .node (.cons (sameBuild_token hname) (.cons hoperands .nil))
  | named hname harrow =>
    exact .node (.cons (sameBuild_token hname) (.cons (sameBuild_ofOption harrow) .nil))

theorem sameBuild_pipeline {items items' : List Item}
    (h : List.Forall₂ Source.reworded.Items items items') :
    SameBuild ((Source.pipelineTree items).map leafOf) ((Source.pipelineTree items').map leafOf) :=
  .node (sameBuild_mapAll Item.tree (fun _ _ => sameBuild_item) h)

theorem sameBuild_target {target target' : Source.Target}
    (h : Source.reworded.Targets target target') :
    SameBuild (target.tree.map leafOf) (target'.tree.map leafOf) := by
  cases h with
  | operand h => exact sameBuild_operand h
  | list h => exact sameBuild_operands "list" h
  | all h => exact sameBuild_token h

theorem sameBuild_branch {branch branch' : Branch} (h : Source.reworded.Branches branch branch') :
    SameBuild (branch.tree.map leafOf) (branch'.tree.map leafOf) := by
  cases h with
  | item h => exact .node (.cons (sameBuild_item h) .nil)
  | group h => exact .node (.cons (sameBuild_pipeline h) .nil)

theorem SameBuild.single {rule : String} {t t' : Source.Tree Leaf} (h : SameBuild t t') :
    SameBuild (.node rule [t]) (.node rule [t']) :=
  .node (.cons h .nil)

theorem sameBuild_statement {s s' : Statement} (h : Source.reworded.Statements s s') :
    SameBuild (s.tree.map leafOf) (s'.tree.map leafOf) := by
  cases h with
  | qubit hname hregister hindex | bit hname hregister hindex =>
    refine (SameBuild.node (.cons (sameBuild_token hname) (.cons ?_ (.cons ?_ .nil)))).single.single
    · exact sameBuild_ofOption hregister
    · exact sameBuild_token hindex
  | plainQubit hname hindex =>
    refine (SameBuild.node (.cons (sameBuild_token hname) (.cons ?_ .nil))).single.single
    exact sameBuild_token hindex
  | list hname hitems =>
    refine (SameBuild.node (.cons (sameBuild_token hname) (.cons ?_ .nil))).single.single
    exact sameBuild_operands "list" hitems
  | instruction hname hitems =>
    refine (SameBuild.node (.cons (sameBuild_token hname) (.cons ?_ .nil))).single.single
    exact sameBuild_pipeline hitems
  | action htarget hcount hitems =>
    refine (SameBuild.node (.cons (sameBuild_target htarget) (.cons ?_ (.cons ?_ .nil)))).single
    · exact sameBuild_ofOption hcount
    · exact sameBuild_pipeline hitems
  | conditional htarget hbranch hflag hotherwise =>
    have htarget := sameBuild_target htarget
    have hbranch := sameBuild_branch hbranch
    have hflag := sameBuild_token hflag
    cases hotherwise with
    | none => exact (SameBuild.node (.cons htarget (.cons hbranch (.cons hflag .nil)))).single
    | some hother =>
      have hother := sameBuild_branch hother
      refine (SameBuild.node ?_).single
      exact .cons htarget (.cons hbranch (.cons hflag (.cons hother .nil)))

/-- With the word `q` and without it the same nodes are built. -/
theorem nodesOf_reworded {statements statements' : List Statement}
    (h : List.Forall₂ Source.reworded.Statements statements statements') (limit : Option Nat) :
    nodesOf limit statements' = nodesOf limit statements := by
  have hprogram : SameBuild ((Source.programTree statements).map leafOf)
      ((Source.programTree statements').map leafOf) :=
    .node (sameBuild_mapAll Statement.tree (fun _ _ => sameBuild_statement) h)
  rw [nodesOf_def, nodesOf_def, hprogram limit []]

end Building

end Program

theorem nodesOfText_wordAdded {text text' : String} (h : Source.WordAdded text text') :
    nodesOfText text' = nodesOfText text := by
  obtain ⟨statements, statements', hparse, hparse', hstatements⟩ := h.parse
  rw [nodesOfText, nodesOfText, hparse, hparse']
  dsimp only
  rw [Program.nodesOf_reworded hstatements]

open Program Lower Config

/-- A qubit of the default register may be written by its index, by its index after the word `q`, or
by a name that is bound to it wherever it is used. -/
theorem qubit_forms_interchangeable :
    (∀ (x : String) (n : Nat) (nodes nodes' : List Node),
      List.Forall₂ (Node.Exchanged x n) nodes nodes' → (∀ node ∈ nodes, node.Boxless) →
      BoundWhereUsed x n nodes nodes' →
      (∀ k, (step^[k] (start nodes')).circuits = (step^[k] (start nodes)).circuits) ∧
        lower nodes' = lower nodes) ∧
    ∀ text text' : String, Relation.EqvGen Source.WordAdded text text' →
      nodesOfText text' = nodesOfText text := by
  constructor
  · intro x n nodes nodes' hnodes hboxless hbound
    obtain ⟨hcircuits, hlower⟩ :=
      Likeness.lower_of_configs (configs_exchanged hnodes hboxless hbound)
    refine ⟨hcircuits, hlower.trans ?_⟩
    exact Outcome.mapError_rename_id _
  · intro text text' h
    induction h with
    | rel _ _ h => exact nodesOfText_wordAdded h
    | refl _ => rfl
    | symm _ _ _ ih => exact ih.symm
    | trans _ _ _ _ _ ih ih' => exact ih'.trans ih

def byIndex : List Node :=
  [.qubit "a" (.default 0), .bit "flag" (.default 1),
    .instruction "link" [.gate ⟨"CX", [.name "a"]⟩],
    .action (.index 1) none (.parts [.named ⟨"link", false⟩]),
    .action (.list [.number (.int 0), .number (.int 1)]) none (.parts [.gate ⟨"H", []⟩]),
    .conditional (.index 0) "flag" [.gate ⟨"X", []⟩] none]

/-- Names for indices, and the other way round in the pipeline. -/
def byName : List Node :=
  [.qubit "a" (.default 0), .bit "flag" (.default 1),
    .instruction "link" [.gate ⟨"CX", [.number (.int 0)]⟩],
    .action (.index 1) none (.parts [.named ⟨"link", false⟩]),
    .action (.list [.name "a", .number (.int 1)]) none (.parts [.gate ⟨"H", []⟩]),
    .conditional (.name "a") "flag" [.gate ⟨"X", []⟩] none]

theorem byIndex_exchanged : List.Forall₂ (Node.Exchanged "a" 0) byIndex byName := by
  have hcall : GateCall.Exchanged "a" 0 ⟨"CX", [.name "a"]⟩ ⟨"CX", [.number (.int 0)]⟩ := by
    have hrule : qubitRules.lookup "CX" = some (.each ⟨.cx, 0, 1, 1, .unchecked⟩) := by decide
    exact @GateCall.Exchanged.partners "a" 0 "CX" _ [] _ _ hrule rfl (.cons .toIndex .nil)
  have hitems : List.Forall₂ (TargetItem.Exchanged "a" 0) [.number (.int 0), .number (.int 1)]
      [.name "a", .number (.int 1)] := .cons .toName (.cons (.same _) .nil)
  refine .cons (.qubit _ _) (.cons (.bit _ _) (.cons (.instruction _ ?_) (.cons ?_ ?_)))
  · exact .cons (.gate hcall) .nil
  · exact .action none (.same _) (.parts (.cons (.named _) .nil))
  · refine .cons (.action none (.list hitems) (.parts ?_)) (.cons ?_ .nil)
    · exact .cons (.gate (.same _)) .nil
    · exact .conditional "flag" .toName (.cons (.gate (.same _)) .nil) .none

theorem byIndex_bound : BoundWhereUsed "a" 0 byIndex byName := by
  have hend : step (step^[11] (start byIndex)) = step^[11] (start byIndex) := by decide
  have hbound : ∀ k < 12, 0 < k →
      (step^[k] (start byIndex)).progress.scope.find? "a" = some (.qubit (.default 0)) := by decide
  intro k task task' htask htask' hdiffers
  by_cases hlate : 11 ≤ k
  · obtain ⟨more, rfl⟩ := Nat.exists_eq_add_of_le' hlate
    rw [Function.iterate_add_apply, Function.iterate_fixed hend]
    exact hbound 11 (by decide) (by decide)
  · by_cases hfirst : k = 0
    · subst hfirst
      cases htask
      cases htask'
      exact absurd hdiffers id
    · exact hbound k (by omega) (by omega)

/-- The qubits of a list and of a gate by index. -/
def pairedText : String := "[0, a] -> CX(1)"

def lastIndex : Source.Token := ⟨.number, "1", ⟨1, 14⟩, ⟨1, 15⟩⟩

theorem pairedText_wordAdded : Source.WordAdded pairedText "[0, a] -> CX(q 1)" := by
  have hparse : Source.parse pairedText = .ok
      [.action (.list [.number ⟨.number, "0", ⟨1, 2⟩, ⟨1, 3⟩⟩, .name ⟨.name, "a", ⟨1, 5⟩, ⟨1, 6⟩⟩])
        none [.gate ⟨.upperName, "CX", ⟨1, 11⟩, ⟨1, 13⟩⟩ [.number lastIndex]]] := by
    decide +kernel
  have hdigits : Source.IsDigits ['1'] := ⟨by simp, List.forall_mem_singleton.mpr (by decide)⟩
  have hlast : ∀ c ∈ ("[0, a] -> CX(".toList ++ []).getLast?, Source.isNameChar c = false := by
    have hopen : ("[0, a] -> CX(".toList ++ []).getLast? = some '(' := rfl
    rw [hopen]
    rintro _ ⟨⟩
    decide
  have hblank : ∀ c ∈ [' '], Source.IsBlank c := List.forall_mem_singleton.mpr (.inl rfl)
  exact @Source.WordAdded.before pairedText _ lastIndex "[0, a] -> CX(".toList [] [' '] [')'] hparse
    (by decide) hdigits rfl rfl (by simp) hlast hblank (by decide)

theorem qubit_forms_interchangeable_linked :
    List.Forall₂ (Node.Exchanged "a" 0) byIndex byName ∧ BoundWhereUsed "a" 0 byIndex byName ∧
      lower byName = lower byIndex ∧
      nodesOfText "[0, a] -> CX(q 1)" = nodesOfText pairedText ∧
      nodesOfText pairedText =
        .ok [.action (.list [.number (.int 0), .name "a"]) none
          (.parts [.gate ⟨"CX", [.number (.int 1)]⟩])] := by
  have hboxless : ∀ node ∈ byIndex, ∀ part ∈ node.parts, part.boxes = false := by decide
  have hforms := qubit_forms_interchangeable
  refine ⟨byIndex_exchanged, byIndex_bound, ?_, ?_, by decide +kernel⟩
  · exact (hforms.1 "a" 0 _ _ byIndex_exchanged hboxless byIndex_bound).2
  · exact hforms.2 _ _ (.rel _ _ pairedText_wordAdded)

end GateScript
