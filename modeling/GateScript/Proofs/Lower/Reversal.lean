import GateScript.Compile
import GateScript.Proofs.Lower.Inlining

/-!
Pipelines that are run backwards.

A reference that is run backwards reverses the parts of its pipeline and nothing below them: a part
that is itself a name is run as it stands. So the gate calls come block by block, one block for
each part, and only the order of the blocks is reversed. That is the order of the single calls in
reverse exactly if every block reads the same from both ends.
-/
namespace GateScript.Lower

open Program Outcome

section Blocks

/-- Reversing the order of the blocks reverses the whole list only if each block is its own
reverse. -/
theorem flatten_reverse_eq_iff {α : Type} (blocks : List (List α)) :
    blocks.reverse.flatten = blocks.flatten.reverse ↔ ∀ block ∈ blocks, block.reverse = block := by
  induction blocks with
  | nil => simp
  | cons block blocks ih =>
    have hlength : block.length = block.reverse.length := List.length_reverse.symm
    have hsplit : (block :: blocks).reverse.flatten = (block :: blocks).flatten.reverse ↔
        blocks.reverse.flatten = blocks.flatten.reverse ∧ block = block.reverse := by
      simp only [List.reverse_cons, List.flatten_append, List.flatten_cons, List.flatten_nil,
        List.append_nil, List.reverse_append]
      constructor
      · intro h
        exact List.append_inj' h hlength
      · rintro ⟨hblocks, hblock⟩
        rw [hblocks, ← hblock]
    rw [hsplit, ih, List.forall_mem_cons]
    constructor
    · rintro ⟨hblocks, hblock⟩
      exact ⟨hblock.symm, hblocks⟩
    · rintro ⟨hblock, hblocks⟩
      exact ⟨hblocks, hblock.symm⟩

/-- Written out, a pipeline is these gate calls. -/
def Comprises (scope : Scope) (parts : List Part) (calls : List GateCall) : Prop :=
  Inlines scope parts (calls.map .gate)

variable {scope : Scope} {parts : List Part} {calls : List GateCall}

theorem Comprises.unique {calls' : List GateCall} (h : Comprises scope parts calls)
    (h' : Comprises scope parts calls') : calls = calls' := by
  have hmap : calls.map Part.gate = calls'.map Part.gate := Inlines.unique h h'
  exact List.map_injective_iff.mpr (fun _ _ => Part.gate.inj) hmap

/-- A pipeline runs the gate calls that it is made of. -/
theorem Comprises.run_eq (h : Comprises scope parts calls) (targets : Targets)
    (condition : Option Condition) (cs : Circuits) :
    runPipeline scope targets condition parts cs =
      runEach (runCall makeBox scope targets condition) calls cs := by
  rw [Inlines.run_eq h, runPipeline_gates]

/-- Parts are inlined one by one. -/
theorem Inlines.cons {part : Part} {flat flat' : List Part} (h : Inlines scope [part] flat)
    (h' : Inlines scope parts flat') : Inlines scope (part :: parts) (flat ++ flat') := by
  cases h with
  | gate call hnil =>
    cases hnil
    exact .gate call h'
  | unresolved hr hnil =>
    cases hnil
    exact .unresolved hr h'
  | named hr hbody hnil =>
    cases hnil
    rw [List.append_nil]
    exact .named hr hbody h'

theorem Inlines.split {part : Part} {flat : List Part} (h : Inlines scope (part :: parts) flat) :
    ∃ first rest, flat = first ++ rest ∧ Inlines scope [part] first ∧ Inlines scope parts rest := by
  cases h with
  | gate call hrest => exact ⟨[.gate call], _, rfl, .gate call .nil, hrest⟩
  | @unresolved r hr _ _ hrest => exact ⟨[.named r], _, rfl, .unresolved hr .nil, hrest⟩
  | @named r body inner hr hbody _ _ hrest =>
    refine ⟨inner, _, rfl, ?_, hrest⟩
    have hsingle : Inlines scope [.named r] (inner ++ []) := .named hr hbody .nil
    rwa [List.append_nil] at hsingle

/-- The gate calls of a pipeline fall into blocks, one for each part. -/
theorem comprises_iff_blocks :
    Comprises scope parts calls ↔ ∃ blocks,
      List.Forall₂ (fun part block => Comprises scope [part] block) parts blocks ∧
        blocks.flatten = calls := by
  constructor
  · intro h
    induction parts generalizing calls with
    | nil =>
      have hcalls : calls = [] := by
        unfold Comprises at h
        generalize hflat : calls.map Part.gate = flat at h
        cases h
        exact List.map_eq_nil_iff.mp hflat
      exact ⟨[], .nil, hcalls.symm⟩
    | cons part parts ih =>
      obtain ⟨first, rest, hflat, hfirst, hrest⟩ := Inlines.split h
      obtain ⟨block, calls', rfl, rfl, rfl⟩ := List.map_eq_append_iff.mp hflat
      obtain ⟨blocks, hblocks, rfl⟩ := ih hrest
      exact ⟨block :: blocks, .cons hfirst hblocks, rfl⟩
  · rintro ⟨blocks, hblocks, rfl⟩
    induction hblocks with
    | nil => exact Inlines.nil
    | cons hblock _ ih =>
      unfold Comprises at hblock ih ⊢
      rw [List.flatten_cons, List.map_append]
      exact hblock.cons ih

theorem comprises_named_iff {r : Reference} {body : List Part}
    (hr : scope.find? r.name = some (.pipeline body)) :
    Comprises scope [.named r] calls ↔ Comprises scope (oriented r body) calls := by
  unfold Comprises
  constructor
  · intro h
    generalize calls.map Part.gate = flat at h
    cases h with
    | unresolved hr' _ => exact absurd hr (hr' body)
    | named hr' hbody hnil =>
      cases hnil
      obtain rfl : body = _ := Entity.pipeline.inj (Option.some.inj (hr.symm.trans hr'))
      rwa [List.append_nil]
  · intro h
    have hsingle := Inlines.named hr h .nil
    rwa [List.append_nil] at hsingle

end Blocks

section Backwards

variable {scope : Scope} {n : String} {body : List Part}

/-- Run backwards, a pipeline has the blocks of its parts in reverse. -/
theorem comprises_backwards {blocks : List (List GateCall)}
    (hn : scope.find? n = some (.pipeline body))
    (hblocks : List.Forall₂ (fun part block => Comprises scope [part] block) body blocks) :
    Comprises scope [.named ⟨n, true⟩] blocks.reverse.flatten := by
  rw [comprises_named_iff hn]
  have hreverse := List.rel_reverse hblocks
  exact comprises_iff_blocks.mpr ⟨blocks.reverse, hreverse, rfl⟩

/-- A name for `n` backwards is the same backwards and forwards. -/
theorem runPipeline_backwards_twice {m : String}
    (hm : scope.find? m = some (.pipeline [.named ⟨n, true⟩])) (targets : Targets)
    (condition : Option Condition) (cs : Circuits) :
    runPipeline scope targets condition [.named ⟨m, true⟩] cs =
      runPipeline scope targets condition [.named ⟨n, true⟩] cs := by
  have hopen := runPipeline_named (r := ⟨m, true⟩) hm targets condition [] cs
  rw [List.append_nil] at hopen
  exact hopen

end Backwards

/-- What a name does backwards if it stands for gate calls. The calls fall into blocks, one for
each part of its pipeline; backwards the blocks are run in reverse, each of them forwards. So the
calls are run in reverse exactly if every block is its own reverse, as single gate calls are. To
run a name for `n` backwards once more backwards changes nothing. -/
theorem backwards_blockwise {scope : Scope} {n : String} {body : List Part} {calls : List GateCall}
    (hn : scope.find? n = some (.pipeline body)) (hcalls : Comprises scope body calls) :
    ∃ blocks, List.Forall₂ (fun part block => Comprises scope [part] block) body blocks ∧
      calls = blocks.flatten ∧
      (∀ targets condition cs, runPipeline scope targets condition [.named ⟨n, true⟩] cs =
        runEach (runCall makeBox scope targets condition) blocks.reverse.flatten cs) ∧
      (Comprises scope [.named ⟨n, true⟩] calls.reverse ↔
        ∀ block ∈ blocks, block.reverse = block) ∧
      ∀ m, scope.find? m = some (.pipeline [.named ⟨n, true⟩]) → ∀ targets condition cs,
        runPipeline scope targets condition [.named ⟨m, true⟩] cs =
          runEach (runCall makeBox scope targets condition) blocks.reverse.flatten cs := by
  obtain ⟨blocks, hblocks, rfl⟩ := comprises_iff_blocks.mp hcalls
  have hback := comprises_backwards hn hblocks
  refine ⟨blocks, hblocks, rfl, hback.run_eq, ?_, fun m hm targets condition cs => ?_⟩
  · rw [← flatten_reverse_eq_iff]
    constructor
    · intro h
      exact hback.unique h
    · intro h
      rwa [← h]
  · rw [runPipeline_backwards_twice hm, hback.run_eq]

/-- A pipeline of two gates, one that begins with it, and a name for the first one backwards. -/
def nestedScope : Scope :=
  [("undone", .pipeline [.named ⟨"pair", true⟩]),
    ("nested", .pipeline [.named ⟨"pair", false⟩, .gate ⟨"X", []⟩]),
    ("pair", .pipeline [.gate ⟨"Z", []⟩, .gate ⟨"H", []⟩])]

theorem comprises_pair : Comprises nestedScope [.named ⟨"pair", false⟩] [⟨"Z", []⟩, ⟨"H", []⟩] := by
  rw [comprises_named_iff rfl]
  exact Inlines.gate _ (.gate _ .nil)

theorem backwards_blockwise_nested :
    Comprises nestedScope [.named ⟨"nested", false⟩] [⟨"Z", []⟩, ⟨"H", []⟩, ⟨"X", []⟩] ∧
    (∀ targets condition cs,
      runPipeline nestedScope targets condition [.named ⟨"nested", true⟩] cs =
        runEach (runCall makeBox nestedScope targets condition)
          [⟨"X", []⟩, ⟨"Z", []⟩, ⟨"H", []⟩] cs) ∧
    ¬Comprises nestedScope [.named ⟨"nested", true⟩] [⟨"X", []⟩, ⟨"H", []⟩, ⟨"Z", []⟩] := by
  have hgate : Comprises nestedScope [.gate ⟨"X", []⟩] [⟨"X", []⟩] := Inlines.gate _ .nil
  have hcalls : Comprises nestedScope [.named ⟨"pair", false⟩, .gate ⟨"X", []⟩]
      [⟨"Z", []⟩, ⟨"H", []⟩, ⟨"X", []⟩] := Inlines.cons comprises_pair hgate
  obtain ⟨blocks, hblocks, -, hrun, hiff, -⟩ := backwards_blockwise (n := "nested") rfl hcalls
  cases hblocks with
  | cons hfirst hrest =>
    cases hrest with
    | cons hsecond hnil =>
      cases hnil
      cases hfirst.unique comprises_pair
      cases hsecond.unique hgate
      refine ⟨(comprises_named_iff rfl).mpr hcalls, hrun, fun h => ?_⟩
      have hreverse := hiff.mp h [⟨"Z", []⟩, ⟨"H", []⟩] List.mem_cons_self
      exact absurd hreverse (by decide)

/-- Backwards, the calls of a pipeline within a pipeline keep their order, and a pipeline that is
turned twice stays turned. -/
theorem circuitsOfText_backwards :
    circuitsOfText "pair : Z | H\nnested : pair | X\n0 -> nested <-" =
      circuitsOfText "0 -> X | Z | H" ∧
    circuitsOfText "0 -> X | Z | H" ≠ circuitsOfText "0 -> X | H | Z" ∧
    circuitsOfText "pair : Z | H\nundone : pair <-\n0 -> undone <-" =
      circuitsOfText "0 -> H | Z" ∧
    circuitsOfText "0 -> H | Z" ≠ circuitsOfText "0 -> Z | H" := by
  decide +kernel

end GateScript.Lower
