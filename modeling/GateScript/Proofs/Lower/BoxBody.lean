import GateScript.Compile
import GateScript.Proofs.Lower.Execution
import GateScript.Proofs.Lower.Machine
import GateScript.Proofs.Lower.Refusal
import GateScript.Proofs.Lower.Reversal

/-!
The bodies of boxes.

No name is known inside a box. The body of a box is run call by call up to its first name, and fails
there, also if the name is that of a pipeline outside. So a pipeline that is made of names and the
gate calls that it comes to make different boxes, unless a call before the first name fails.
-/
namespace GateScript.Lower

open Program Outcome

section Bodies

/-- The gate calls of a pipeline before its first name. -/
def leadingCalls : List Part → List GateCall
  | .gate call :: parts => call :: leadingCalls parts
  | _ => []

/-- The first name of a pipeline. -/
def firstReference? : List Part → Option Reference
  | [] => none
  | .gate _ :: parts => firstReference? parts
  | .named r :: _ => some r

/-- Runs a gate call in the body of a box. -/
def runBoxCall : GateCall → Circuits → Outcome Circuits := runCall noBox [] ⟨[.default 0], []⟩ none

theorem runBoxPart_named (r : Reference) (cs : Circuits) :
    runBoxPart (.named r) cs = failed (.unknownName r.name) cs := by
  rw [runBoxPart, runPart_unresolved (by simp [Scope.find?])]
  rfl

/-- A body is run up to its first name, and fails there. -/
theorem runEach_runBoxPart (body : List Part) (cs : Circuits) :
    runEach runBoxPart body cs =
      (runEach runBoxCall (leadingCalls body) cs).andThen fun cs =>
        match firstReference? body with
        | none => done cs
        | some r => failed (.unknownName r.name) cs := by
  induction body generalizing cs with
  | nil => rfl
  | cons part body ih =>
    cases part with
    | gate call =>
      have hcall : runBoxPart (.gate call) = runBoxCall call := runPart_gate call
      simp only [leadingCalls, firstReference?, runEach_cons, andThen_assoc, hcall]
      congr 1
      funext cs'
      exact ih cs'
    | named r =>
      rw [runEach_cons, runBoxPart_named]
      rfl

theorem runBody_eq_runEach (body : List Part) (width : Nat) :
    runBody body width = runEach runBoxPart body ⟨.blank width, []⟩ :=
  runPipelineWith_eq_runEach noBox [] ⟨[.default 0], []⟩ none body ⟨.blank width, []⟩

theorem runBody_eq (body : List Part) (width : Nat) :
    runBody body width =
      (runEach runBoxCall (leadingCalls body) ⟨.blank width, []⟩).andThen fun cs =>
        match firstReference? body with
        | none => done cs
        | some r => failed (.unknownName r.name) cs := by
  rw [runBody_eq_runEach, runEach_runBoxPart]

theorem runEach_runBoxCall_ne_endless (calls : List GateCall) (cs : Circuits) :
    runEach runBoxCall calls cs ≠ endless :=
  runEach_ne_endless (fun call _ cs => runCall_ne_endless noBox_regular [] _ none call cs) cs

theorem leadingCalls_gates (calls : List GateCall) :
    leadingCalls (calls.map .gate) = calls ∧ firstReference? (calls.map .gate) = none := by
  induction calls with
  | nil => exact ⟨rfl, rfl⟩
  | cons call calls ih =>
    constructor
    · rw [List.map_cons, leadingCalls, ih.1]
    · exact ih.2

theorem runBody_gates (calls : List GateCall) (width : Nat) :
    runBody (calls.map .gate) width = runEach runBoxCall calls ⟨.blank width, []⟩ := by
  obtain ⟨hcalls, hnames⟩ := leadingCalls_gates calls
  rw [runBody_eq, hcalls, hnames]
  exact andThen_done_right _

/-- The calls before the first name come first once the names are written out, and without names
there are no others. -/
theorem Comprises.leading {scope : Scope} {parts : List Part} {calls : List GateCall}
    (h : Comprises scope parts calls) : ∃ rest, calls = leadingCalls parts ++ rest ∧
      (firstReference? parts = none → rest = []) := by
  induction parts generalizing calls with
  | nil =>
    have hcalls : calls = [] := h.unique Inlines.nil
    exact ⟨[], hcalls, fun _ => rfl⟩
  | cons part parts ih =>
    cases part with
    | gate call =>
      obtain ⟨blocks, hblocks, rfl⟩ := comprises_iff_blocks.mp h
      cases hblocks with
      | @cons _ block _ blocks hblock hrest =>
        have hsingle : block = [call] := hblock.unique (Inlines.gate call .nil)
        obtain ⟨rest, hrest, hnone⟩ := ih (comprises_iff_blocks.mpr ⟨blocks, hrest, rfl⟩)
        refine ⟨rest, ?_, hnone⟩
        rw [List.flatten_cons, hsingle, hrest]
        rfl
    | named r =>
      refine ⟨calls, rfl, fun hnone => ?_⟩
      simp [firstReference?] at hnone

variable {scope : Scope} {body : List Part} {calls : List GateCall} {width : Nat}

/-- Where the calls before the first name are done, only a body without names comes to the same as
the calls that it is made of. -/
theorem runBody_eq_gates_iff (hcalls : Comprises scope body calls)
    (hnumbers : ∀ call ∈ calls, Numeric call) :
    runBody body width = runBody (calls.map .gate) width ↔
      firstReference? body = none ∨ ∃ e inner,
        runEach runBoxCall (leadingCalls body) ⟨.blank width, []⟩ = failed e inner := by
  obtain ⟨rest, rfl, hnone⟩ := hcalls.leading
  rw [runBody_gates, runBody_eq, runEach_append]
  cases hlead : runEach runBoxCall (leadingCalls body) ⟨.blank width, []⟩ with
  | endless => exact absurd hlead (runEach_runBoxCall_ne_endless _ _)
  | failed e inner => exact ⟨fun _ => .inr ⟨e, inner, rfl⟩, fun _ => rfl⟩
  | done inner =>
    simp only [andThen_done, reduceCtorEq, exists_false, or_false]
    cases hfirst : firstReference? body with
    | none =>
      have hrest := hnone hfirst
      rw [hrest]
      exact ⟨fun _ => rfl, fun _ => rfl⟩
    | some r =>
      simp only [reduceCtorEq, iff_false]
      intro heq
      have hnameless : (runEach runBoxCall rest inner).FailsOnly LowerError.Nameless := by
        apply Outcome.FailsOnly.runEach
        intro call hcall cs
        exact runCall_nameless noBox [] _ none (hnumbers call (List.mem_append_right _ hcall)) cs
      exact hnameless (.unknownName r.name) inner heq.symm

/-- A box holds no other box. -/
theorem runBody_boxes (body : List Part) (width : Nat) :
    (runBody body width).Ensures fun inner => inner.boxes = [] := by
  have hpermits : PermitsQuantum (fun _ => True) none :=
    ⟨fun _ => trivial, fun _ => trivial, fun _ _ => trivial⟩
  rw [runBody_eq_runEach]
  refine Ensures.runEach (fun part _ cs hcs => ?_) rfl
  exact (runBoxPart_keeps hpermits part cs).mono fun cs' hkeeps => hkeeps.boxes.trans hcs

theorem runBody_name {r : Reference} (hfirst : firstReference? body = some r) {inner : Circuits}
    (hlead : runEach runBoxCall (leadingCalls body) ⟨.blank width, []⟩ = done inner) :
    runBody body width = failed (.unknownName r.name) inner := by
  rw [runBody_eq, hlead, hfirst]
  rfl

end Bodies

section Actions

/-- The action that boxes a pipeline given by name. -/
def boxAction (target : Target) (name : String) : Node :=
  .action target none (.parts [.gate ⟨"CIRCBOX", [.name name]⟩])

theorem filterMap_qubits (targets : List Qubit) :
    Targets.ofEntities (targets.map .qubit) = ⟨targets, []⟩ := by
  have hqubits : (targets.map Entity.qubit).filterMap Entity.qubit? = targets := by
    rw [List.filterMap_map]
    exact List.filterMap_some
  have hbits : (targets.map Entity.qubit).filterMap Entity.bit? = [] := by
    simp [Entity.bit?]
  rw [Targets.ofEntities, hqubits, hbits]

variable {p : Progress} {target : Target} {name : String} {body : List Part}
  {targets : List Qubit}

/-- An action that boxes a pipeline makes a box for the qubits, once they are present. -/
theorem runNode_boxAction (hname : p.scope.find? name = some (.pipeline body))
    (htarget : resolveTarget p.scope p.circuits.main target = .ok (targets.map .qubit))
    (hne : targets ≠ []) :
    runNode (boxAction target name) p =
      (makeBox body targets (p.onMain (·.ensureQubits targets)).circuits).map
        (Progress.mk p.scope) := by
  have hrule : findRule qubitRules "CIRCBOX" targets (.unknownGate "CIRCBOX") =
      .ok (some .box) := by
    unfold findRule
    rw [if_neg (by simpa using hne)]
    rfl
  have hbit : findRule bitRules "CIRCBOX" ([] : List Bit) (.unknownBitOperation "CIRCBOX") =
      .ok none := rfl
  have hprepare : prepare p.scope ⟨targets, []⟩ ⟨"CIRCBOX", [.name name]⟩ =
      .ok ⟨[.entity (.pipeline body)], some .box, none⟩ := by
    simp only [prepare, resolveArgs, hname, Except.map, hrule, hbit]
  have hrun : runPipeline p.scope ⟨targets, []⟩ none [.gate ⟨"CIRCBOX", [.name name]⟩] p.circuits =
      makeBox body targets (p.onMain (·.ensureQubits targets)).circuits := by
    have hgates : runPipeline p.scope ⟨targets, []⟩ none [.gate ⟨"CIRCBOX", [.name name]⟩]
        p.circuits = runEach (runCall makeBox p.scope ⟨targets, []⟩ none)
          [⟨"CIRCBOX", [.name name]⟩] p.circuits :=
      runPipeline_gates _ _ [⟨"CIRCBOX", [.name name]⟩] _
    rw [hgates, runEach_cons, runEach_nil, andThen_done_right, runCall_box hprepare rfl]
    rfl
  unfold boxAction runNode runAction
  simp only [htarget, resolveInstruction, filterMap_qubits]
  rw [rounds, runTimes, hrun]
  congr 1
  exact andThen_done_right _

/-- Two pipelines make the same box exactly if their bodies come to the same. -/
theorem makeBox_eq_iff (body body' : List Part) (cs : Circuits) :
    makeBox body targets cs = makeBox body' targets cs ↔
      runBody body targets.length = runBody body' targets.length := by
  constructor
  · intro h
    have hbody := runBody_boxes body targets.length
    have hbody' := runBody_boxes body' targets.length
    unfold makeBox at h
    cases hrun : runBody body targets.length with
    | endless => exact absurd hrun (runBody_ne_endless _ _)
    | done inner =>
      cases hrun' : runBody body' targets.length with
      | endless => exact absurd hrun' (runBody_ne_endless _ _)
      | failed e inner' => simp [hrun, hrun'] at h
      | done inner' =>
        rw [hrun, ensures_done] at hbody
        rw [hrun', ensures_done] at hbody'
        have hmain : inner.main = inner'.main := by simpa [hrun, hrun'] using h
        have hinner : inner = inner' := congrArg₂ Circuits.mk hmain (hbody.trans hbody'.symm)
        rw [hinner]
    | failed e inner =>
      cases hrun' : runBody body' targets.length with
      | endless => exact absurd hrun' (runBody_ne_endless _ _)
      | done inner' => simp [hrun, hrun'] at h
      | failed e' inner' =>
        rw [hrun, ensures_failed] at hbody
        rw [hrun', ensures_failed] at hbody'
        obtain ⟨he, hmain⟩ : e = e' ∧ inner.main = inner'.main := by simpa [hrun, hrun'] using h
        have hinner : inner = inner' := congrArg₂ Circuits.mk hmain (hbody.trans hbody'.symm)
        rw [he, hinner]
  · intro h
    unfold makeBox
    rw [h]

/-- Two actions that box pipelines for the same qubits come to the same exactly if the bodies of
the boxes do. -/
theorem runNode_boxAction_eq_iff {name' : String} {body' : List Part}
    (hname : p.scope.find? name = some (.pipeline body))
    (hname' : p.scope.find? name' = some (.pipeline body'))
    (htarget : resolveTarget p.scope p.circuits.main target = .ok (targets.map .qubit))
    (hne : targets ≠ []) :
    runNode (boxAction target name) p = runNode (boxAction target name') p ↔
      runBody body targets.length = runBody body' targets.length := by
  rw [runNode_boxAction hname htarget hne, runNode_boxAction hname' htarget hne]
  have hinjective : Function.Injective (Progress.mk p.scope) := by
    intro cs cs' h
    exact (Progress.mk.inj h).2
  rw [map_inj hinjective, makeBox_eq_iff]

end Actions

/-- What becomes of names in a box. Let `name` stand for a pipeline, and `name'` for the gate calls
that it is made of once all names in it are written out, with numbers for arguments. To box the one
comes to the same as to box the other exactly if there is no name in the pipeline of `name`, or a
call before the first one fails. In all other cases the box ends at the first name, which is not
known there, and is not applied to the qubits. -/
theorem box_names_unknown {p : Progress} {target : Target} {name name' : String}
    {body : List Part} {calls : List GateCall} {targets : List Qubit}
    (hname : p.scope.find? name = some (.pipeline body))
    (hname' : p.scope.find? name' = some (.pipeline (calls.map .gate)))
    (hcalls : Comprises p.scope body calls) (hnumbers : ∀ call ∈ calls, Numeric call)
    (htarget : resolveTarget p.scope p.circuits.main target = .ok (targets.map .qubit))
    (hne : targets ≠ []) :
    (runNode (boxAction target name) p = runNode (boxAction target name') p ↔
      firstReference? body = none ∨ ∃ e inner,
        runEach runBoxCall (leadingCalls body) ⟨.blank targets.length, []⟩ = failed e inner) ∧
    ∀ r inner, firstReference? body = some r →
      runEach runBoxCall (leadingCalls body) ⟨.blank targets.length, []⟩ = done inner →
      runNode (boxAction target name) p = failed (.unknownName r.name)
        ⟨p.scope, p.circuits.main.ensureQubits targets, p.circuits.boxes ++ [inner.main]⟩ := by
  constructor
  · rw [runNode_boxAction_eq_iff hname hname' htarget hne]
    exact runBody_eq_gates_iff hcalls hnumbers
  · intro r inner hfirst hlead
    have hbody := runBody_name hfirst hlead
    rw [runNode_boxAction hname htarget hne, makeBox, hbody]
    rfl

/-- A pipeline that begins with a name, and the gate calls that it is made of. -/
def aliasProgress : Progress :=
  ⟨[("plain", .pipeline [.gate ⟨"H", []⟩, .gate ⟨"X", []⟩]),
    ("aliased", .pipeline [.named ⟨"turn", false⟩, .gate ⟨"X", []⟩]),
    ("turn", .pipeline [.gate ⟨"H", []⟩])], ⟨.blank 0, []⟩⟩

theorem box_names_unknown_alias :
    runNode (boxAction (.index 0) "aliased") aliasProgress ≠
      runNode (boxAction (.index 0) "plain") aliasProgress ∧
    runNode (boxAction (.index 0) "aliased") aliasProgress = failed (.unknownName "turn")
      ⟨aliasProgress.scope, (Circuit.blank 0).ensureQubits [.default 0], [.blank 1]⟩ := by
  have hcalls : Comprises aliasProgress.scope [.named ⟨"turn", false⟩, .gate ⟨"X", []⟩]
      [⟨"H", []⟩, ⟨"X", []⟩] :=
    Inlines.named (r := ⟨"turn", false⟩) rfl (.gate _ .nil) (.gate _ .nil)
  have hnumbers : ∀ call ∈ [⟨"H", []⟩, ⟨"X", []⟩], Numeric call := by
    simp [Numeric]
  have haliased : aliasProgress.scope.find? "aliased" =
      some (.pipeline [.named ⟨"turn", false⟩, .gate ⟨"X", []⟩]) := rfl
  have hplain : aliasProgress.scope.find? "plain" =
      some (.pipeline ([⟨"H", []⟩, ⟨"X", []⟩].map .gate)) := rfl
  have htarget : resolveTarget aliasProgress.scope aliasProgress.circuits.main (.index 0) =
      .ok ([.default 0].map .qubit) := rfl
  obtain ⟨hiff, hname⟩ :=
    box_names_unknown haliased hplain hcalls hnumbers htarget (by simp)
  constructor
  · intro h
    cases hiff.mp h with
    | inl hnone => cases hnone
    | inr hfailed =>
      obtain ⟨e, inner, hfailed⟩ := hfailed
      cases hfailed
  · exact hname ⟨"turn", false⟩ _ rfl rfl

/-- A name in a pipeline is known where the pipeline is run, and not where it is boxed. -/
theorem circuitsOfText_boxed_name :
    circuitsOfText "h : H\np : h | X\n[0, 1] -> p" =
      circuitsOfText "p : H | X\n[0, 1] -> p" ∧
    circuitsOfText "h : H\np : h | X\n[0, 1] -> CIRCBOX(p)" ≠
      circuitsOfText "p : H | X\n[0, 1] -> CIRCBOX(p)" := by
  decide +kernel

end GateScript.Lower
