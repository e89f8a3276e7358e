import GateScript.Proofs.Program.Building
import GateScript.Proofs.Source.Trees

/-!
The numerals of what was read. They are those of the nodes, in order, and every one of them has to
be readable for the nodes to be built.
-/
namespace GateScript.Source.Tree

variable {α : Type}

mutual

def leaves : Tree α → List α
  | node _ children => leavesAll children
  | leaf value => [value]
  | absent => []

def leavesAll : List (Tree α) → List α
  | [] => []
  | t :: ts => leaves t ++ leavesAll ts

end

theorem leavesAll_eq (ts : List (Tree α)) : leavesAll ts = ts.flatMap leaves := by
  induction ts with
  | nil => rfl
  | cons t ts ih => rw [leavesAll, ih, List.flatMap_cons]

end GateScript.Source.Tree

namespace GateScript.Program

open Source (Token Terminal Operand Item Branch Statement)

section Building

variable {limit : Option Nat}

/-- A list of trees is built only if each of them is. -/
theorem buildTrees_mem {ts : List (Source.Tree Leaf)} {table : PipelineTable} {vs : List Value}
    (h : (buildTrees limit table ts).result = .ok vs) :
    ∀ t ∈ ts, ∃ table v, (buildTree limit table t).result = .ok v := by
  induction ts generalizing table vs with
  | nil => simp
  | cons t ts ih =>
    rw [buildTrees] at h
    split at h
    · simp at h
    · rename_i v table' hfirst
      split at h
      · simp at h
      · rename_i vs table'' hrest
        refine List.forall_mem_cons.mpr ⟨⟨table, v, by rw [hfirst]⟩, ih (by rw [hrest])⟩

/-- A tree is built only if each of its leaves is. -/
theorem buildTree_leaf {t : Source.Tree Leaf} {table : PipelineTable} {v : Value}
    (h : (buildTree limit table t).result = .ok v) {l : Leaf} (hl : l ∈ t.leaves) :
    ∃ w, l.build limit = .ok w := by
  match t with
  | .absent => simp [Source.Tree.leaves] at hl
  | .leaf l' =>
    obtain rfl : l = l' := by simpa [Source.Tree.leaves] using hl
    exact ⟨v, h⟩
  | .node rule children =>
    rw [Source.Tree.leaves, Source.Tree.leavesAll_eq] at hl
    obtain ⟨t, ht, hl⟩ := List.mem_flatMap.mp hl
    rw [buildTree] at h
    split at h
    · simp at h
    · rename_i vs table' hchildren
      obtain ⟨table, v, hv⟩ := buildTrees_mem (by rw [hchildren]) t ht
      exact buildTree_leaf hv hl
termination_by sizeOf t
decreasing_by
  have := List.sizeOf_lt_of_mem ht
  simp
  omega

end Building

section Numerals

/-- The text of a numeral. -/
def Leaf.numeral? : Leaf → Option String
  | .token "NUMBER" s => some s
  | _ => none

/-- The texts of the numerals of a tree. -/
def numerals (t : Source.Tree Token) : List String :=
  (t.map leafOf).leaves.filterMap Leaf.numeral?

theorem numerals_node (rule : String) (ts : List (Source.Tree Token)) :
    numerals (.node rule ts) = ts.flatMap numerals := by
  rw [numerals, Source.Tree.map, Source.Tree.leaves, Source.Tree.leavesAll_eq,
    Source.Tree.mapAll_eq, List.flatMap_map, List.filterMap_flatMap]
  rfl

/-- The numerals of a tree are those of some integers, in order. -/
def HasNumerals (t : Source.Tree Token) (numbers : List Int) : Prop :=
  numerals t = numbers.map toString

theorem HasNumerals.node {rule : String} {ts : List (Source.Tree Token)}
    {groups : List (List Int)} {numbers : List Int} (h : List.Forall₂ HasNumerals ts groups)
    (hnumbers : groups.flatten = numbers) : HasNumerals (.node rule ts) numbers := by
  subst hnumbers
  rw [HasNumerals, numerals_node]
  induction h with
  | nil => rfl
  | cons hfirst _ ih => rw [List.flatMap_cons, hfirst, ih, List.flatten_cons, List.map_append]

theorem HasNumerals.absent : HasNumerals .absent [] := rfl

theorem hasNumerals_token {t : Token} {terminal : Terminal} {s : String} (h : t.Is terminal s)
    (hnumber : terminal ≠ .number) : HasNumerals (.leaf t) [] := by
  obtain ⟨terminal, text, start, stop⟩ := t
  obtain ⟨rfl, rfl⟩ := h
  cases terminal with
  | number => exact absurd rfl hnumber
  | _ => rfl

theorem hasNumerals_number {t : Token} {n : Nat} (h : t.Is .number (toString n)) :
    HasNumerals (.leaf t) [(n : Int)] := by
  obtain ⟨terminal, text, start, stop⟩ := t
  obtain ⟨rfl, rfl⟩ := h
  rfl

theorem hasNumerals_map {α β : Type} {spells : α → β → Prop} (tree : α → Source.Tree Token)
    (numbers : β → List Int) (hnumerals : ∀ a b, spells a b → HasNumerals (tree a) (numbers b))
    {as : List α} {bs : List β} (h : List.Forall₂ spells as bs) :
    List.Forall₂ HasNumerals (as.map tree) (bs.map numbers) :=
  List.forall₂_map_left_iff.mpr (List.forall₂_map_right_iff.mpr (h.imp hnumerals))

theorem hasNumerals_operand {operand : Operand} {arg : Argument} (h : operand.Spells arg) :
    HasNumerals operand.tree arg.numbers := by
  cases h with
  | name h => exact hasNumerals_token h (by decide)
  | number h => exact hasNumerals_number h

theorem hasNumerals_operands {rule : String} {operands : List Operand} {args : List Argument}
    (h : List.Forall₂ Operand.Spells operands args) :
    HasNumerals (.node rule (operands.map Operand.tree)) (args.flatMap Argument.numbers) :=
  .node (hasNumerals_map Operand.tree Argument.numbers (fun _ _ => hasNumerals_operand) h) rfl

theorem hasNumerals_item {item : Item} {part : Part} (h : item.Spells part) :
    HasNumerals item.tree part.numbers := by
  cases h with
  | gate h hargs =>
    have hname := hasNumerals_token h (by decide)
    have hoperands : HasNumerals (.node "args" _) _ := hasNumerals_operands hargs
    cases hargs with
    | nil => exact .node (.cons hname (.cons .absent .nil)) rfl
    | cons => exact .node (.cons hname (.cons hoperands .nil)) (by simp [Part.numbers])
  | named h => exact .node (.cons (hasNumerals_token h (by decide)) (.cons .absent .nil)) rfl
  | backwards h harrow =>
    have hname := hasNumerals_token h (by decide)
    have harrow := hasNumerals_token harrow (by decide)
    exact .node (.cons hname (.cons harrow .nil)) rfl

theorem hasNumerals_pipeline {items : List Item} {parts : List Part}
    (h : List.Forall₂ Item.Spells items parts) :
    HasNumerals (Source.pipelineTree items) (parts.flatMap Part.numbers) :=
  .node (hasNumerals_map Item.tree Part.numbers (fun _ _ => hasNumerals_item) h) rfl

theorem hasNumerals_target {target : Source.Target} {aim : Target} (h : target.Spells aim) :
    HasNumerals target.tree aim.numbers := by
  cases h with
  | all h => exact hasNumerals_token h (by decide)
  | name h _ => exact hasNumerals_token h (by decide)
  | index h => exact hasNumerals_number h
  | @list operands args h =>
    have hlist : HasNumerals (Source.listTree operands) _ := hasNumerals_operands h
    rwa [← numbers_targetItems] at hlist

theorem hasNumerals_branch {branch : Branch} {parts : List Part} (h : branch.Spells parts) :
    HasNumerals branch.tree (parts.flatMap Part.numbers) := by
  cases h with
  | item h => exact .node (.cons (hasNumerals_item h) .nil) (by simp)
  | group h => exact .node (.cons (hasNumerals_pipeline h) .nil) (by simp)

theorem hasNumerals_unit {rule : String} {default : String} {name index : Token}
    {register : Option Token} {x r : String} {n : Nat} (hname : name.Is .name x)
    (hregister : Source.SpellsRegister default register r)
    (hindex : index.Is .number (toString n)) :
    HasNumerals (.node rule [.leaf name, Source.Tree.ofOption register, .leaf index])
      [(n : Int)] := by
  have hname := hasNumerals_token hname (by decide)
  have hindex := hasNumerals_number hindex
  cases hregister with
  | none => exact .node (.cons hname (.cons .absent (.cons hindex .nil))) rfl
  | some hregister =>
    have hregister := hasNumerals_token hregister (by decide)
    exact .node (.cons hname (.cons hregister (.cons hindex .nil))) rfl

theorem HasNumerals.single {rule : String} {t : Source.Tree Token} {numbers : List Int}
    (h : HasNumerals t numbers) : HasNumerals (.node rule [t]) numbers :=
  .node (.cons h .nil) (List.append_nil _)

/-- The numerals of a statement are those of its node. -/
theorem hasNumerals_statement {s : Statement} {node : Node} (h : s.Spells node) :
    HasNumerals s.tree node.numbers := by
  cases h with
  | qubit hname hregister hindex => exact (hasNumerals_unit hname hregister hindex).single.single
  | bit hname hregister hindex => exact (hasNumerals_unit hname hregister hindex).single.single
  | @list name x operands items hname h =>
    have hname := hasNumerals_token hname (by decide)
    have hlist : HasNumerals (Source.listTree operands) _ := hasNumerals_operands h
    refine (HasNumerals.node (.cons hname (.cons hlist .nil)) ?_).single.single
    simp [Argument.numbers, Node.numbers]
  | instruction hname h =>
    have hname := hasNumerals_token hname (by decide)
    have hparts := hasNumerals_pipeline h
    exact (HasNumerals.node (.cons hname (.cons hparts .nil)) (List.append_nil _)).single.single
  | action htarget hcount h =>
    have htarget := hasNumerals_target htarget
    have hparts := hasNumerals_pipeline h
    cases hcount with
    | none =>
      refine (HasNumerals.node (.cons htarget (.cons .absent (.cons hparts .nil))) ?_).single
      simp [Node.numbers]
    | some hcount =>
      have hcount := hasNumerals_number hcount
      refine (HasNumerals.node (.cons htarget (.cons hcount (.cons hparts .nil))) ?_).single
      simp [Node.numbers]
  | conditional htarget hbranch hflag helse =>
    have htarget := hasNumerals_target htarget
    have hbranch := hasNumerals_branch hbranch
    have hflag := hasNumerals_token hflag (by decide)
    cases helse with
    | none =>
      refine (HasNumerals.node (.cons htarget (.cons hbranch (.cons hflag .nil))) ?_).single
      simp [Node.numbers]
    | some helse =>
      have helse := hasNumerals_branch helse
      refine (HasNumerals.node
        (.cons htarget (.cons hbranch (.cons hflag (.cons helse .nil)))) ?_).single
      simp [Node.numbers]

end Numerals

section Limits

variable {limit : Option Nat}

theorem Leaf.eq_token_of_numeral? {l : Leaf} {s : String} (h : l.numeral? = some s) :
    l = .token "NUMBER" s := by
  unfold Leaf.numeral? at h
  split at h
  · exact congrArg _ (Option.some.inj h)
  · simp at h

theorem fits_of_buildNumber {n : Nat} {v : Value} (h : buildNumber limit (toString n) = .ok v) :
    Decimal.Fits limit n := by
  by_contra hfit
  have hread := Number.read_toString_ne_ok hfit
  unfold buildNumber at h
  split at h
  · rename_i x hx
    exact hread x hx
  all_goals simp at h

theorem buildTree_of_nodesOf {statements : List Statement} {nodes : List Node}
    (h : nodesOf limit statements = .ok nodes) :
    ∃ v, (buildTree limit [] ((Source.programTree statements).map leafOf)).result = .ok v := by
  rw [nodesOf_def] at h
  split at h
  · simp at h
  · exact ⟨_, by assumption⟩
  · exact ⟨_, by assumption⟩

/-- Nodes are built only if every number of theirs can be read. -/
theorem numbersFit_of_nodesOf {statements : List Statement} {nodes nodes' : List Node}
    (h : List.Forall₂ Statement.Spells statements nodes)
    (hnodes : nodesOf limit statements = .ok nodes') :
    NumbersFit limit (nodes.flatMap Node.numbers) := by
  intro n hn
  have hnumerals : HasNumerals (Source.programTree statements) (nodes.flatMap Node.numbers) :=
    .node (hasNumerals_map Statement.tree Node.numbers (fun _ _ => hasNumerals_statement) h) rfl
  have hmem : toString n ∈ numerals (Source.programTree statements) := by
    rw [hnumerals]
    exact List.mem_map.mpr ⟨n, hn, rfl⟩
  obtain ⟨l, hl, hnumeral⟩ := List.mem_filterMap.mp hmem
  obtain rfl := Leaf.eq_token_of_numeral? hnumeral
  obtain ⟨v, hv⟩ := buildTree_of_nodesOf hnodes
  obtain ⟨w, hw⟩ := buildTree_leaf hv hl
  exact fits_of_buildNumber hw

end Limits

end GateScript.Program
