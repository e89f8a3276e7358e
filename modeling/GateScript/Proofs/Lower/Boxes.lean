import GateScript.Proofs.Lower.Growth
import GateScript.Proofs.Lower.Refusal
import GateScript.Proofs.Lower.Stopping

/-!
The boxes of a program.

A box is closed, and applied in the main circuit under its number, before the next one is begun.
So the main circuit applies the boxes in the order in which they were begun, each of them once. Only
the last box can be missing, if it is being built or has failed. Inside a box there is no other one:
to begin a box takes the name of a pipeline, and no name is known there.
-/
namespace GateScript

/-- The qubits and the number of the box that an operation applies. -/
def Operation.applied? : Operation → Option (List Qubit × Nat)
  | .box number qubits => some (qubits, number)
  | _ => none

theorem Operation.applied?_eq_none {operation : Operation} (h : ¬operation.IsBox) :
    operation.applied? = none := by
  cases operation with
  | box number qubits => exact absurd trivial h
  | _ => rfl

theorem Operation.IsQuantum.not_isBox {operation : Operation} (h : operation.IsQuantum) :
    ¬operation.IsBox := by
  cases operation <;> simp_all [Operation.IsQuantum, Operation.IsBox]

theorem Operation.IsQuantum.not_isClassical {operation : Operation} (h : operation.IsQuantum) :
    ¬operation.IsClassical := by
  cases operation <;> simp_all [Operation.IsQuantum, Operation.IsClassical]

theorem Operation.IsClassical.not_isBox {operation : Operation} (h : operation.IsClassical) :
    ¬operation.IsBox := by
  cases operation <;> simp_all [Operation.IsClassical, Operation.IsBox]

theorem Call.IsAllocation.not_isBox {call : Call} (h : call.IsAllocation) :
    ¬call.operation.IsBox := by
  cases h <;> exact id

namespace Circuit

/-- The boxes that a circuit applies, in order: the qubits and the number of each. -/
def applied (c : Circuit) : List (List Qubit × Nat) :=
  c.calls.filterMap fun call => call.operation.applied?

theorem applied_record (c : Circuit) (number : Nat) (qubits : List Qubit) :
    (c.record (.box number qubits) none).applied = c.applied ++ [(qubits, number)] := by
  have hcalls : (c.record (.box number qubits) none).calls =
      c.calls ++ [⟨.box number qubits, none⟩] := rfl
  rw [applied, hcalls, List.filterMap_append]
  rfl

/-- Without a call for a box, no box is applied. -/
theorem Records.applied_eq {allowed : Call → Prop} {c c' : Circuit} (h : Records allowed c c')
    (hbox : ∀ call, allowed call → ¬call.operation.IsBox) : c'.applied = c.applied := by
  obtain ⟨new, hcalls, hnew⟩ := h.exists_calls
  have hnone : new.filterMap (fun call => call.operation.applied?) = [] := by
    rw [List.filterMap_eq_nil_iff]
    intro call hcall
    exact Operation.applied?_eq_none (hbox call (hnew call hcall))
  rw [applied, hcalls, List.filterMap_append, hnone, List.append_nil]
  rfl

end Circuit

namespace Lower

open Program Outcome Circuit Config

/-- A box for some targets: it is blank at first, with one qubit for each of them, and gets no box,
no operation on bits and nothing under a condition. -/
structure BoxFor (targets : List Qubit) (box : Circuit) : Prop where
  blank : Records (fun _ => True) (.blank targets.length) box
  calls : ∀ call ∈ box.calls,
    ¬call.operation.IsBox ∧ ¬call.operation.IsClassical ∧ call.condition = none

section Calls

theorem PlainCall.confined {call : Call} (h : PlainCall call) :
    ¬call.operation.IsBox ∧ ¬call.operation.IsClassical ∧ call.condition = none := by
  rcases h with hadd | ⟨hquantum, hnone⟩
  · cases hadd <;> exact ⟨id, id, rfl⟩
  · exact ⟨hquantum.not_isBox, hquantum.not_isClassical, hnone⟩

theorem boxFor_of_records {targets : List Qubit} {box : Circuit}
    (h : Records PlainCall (.blank targets.length) box) : BoxFor targets box := by
  refine ⟨h.mono fun _ _ => trivial, fun call hcall => ?_⟩
  obtain ⟨new, hcalls, hnew⟩ := h.exists_calls
  have hblank : (Circuit.blank targets.length).calls = [] := rfl
  rw [hcalls, hblank, List.nil_append] at hcall
  exact (hnew call hcall).confined

/-- Only closing a box applies one. -/
theorem Task.not_isBox_of_allows {task : Task} {call : Call} (h : task.Allows call) :
    ¬call.operation.IsBox := by
  cases task with
  | node node => exact Call.IsAllocation.not_isBox h
  | branches bit ifParts elseParts target => exact Call.IsAllocation.not_isBox h
  | part origin targets part =>
    rcases h with hadd | ⟨hquantum, -⟩ | ⟨-, hclassical, -⟩
    · exact hadd.not_isBox
    · exact hquantum.not_isBox
    · exact hclassical.not_isBox

theorem applied_closeBox (cs : Circuits) (box : Circuit) (targets : List Qubit) :
    (cs.closeBox box targets).main.applied =
      cs.main.applied ++ [(targets, cs.boxes.length + 1)] := by
  have hens : Records Call.IsAllocation cs.main (cs.main.ensureQubits targets) :=
    records_ensureQubits .addBit .addQubit cs.main targets
  rw [← hens.applied_eq fun _ => Call.IsAllocation.not_isBox]
  exact applied_record _ _ _

/-- The rule that makes a box goes by one name. -/
theorem name_of_lookup_box {name : String} (h : qubitRules.lookup name = some .box) :
    name = "CIRCBOX" := by
  have hnames : ∀ entry ∈ qubitRules, entry.2 = .box → entry.1 = "CIRCBOX" := by decide
  obtain ⟨before, after, hrules, -⟩ := List.lookup_eq_some_iff.mp h
  apply hnames (name, .box) _ rfl
  rw [hrules]
  exact List.mem_append_right before List.mem_cons_self

theorem name_of_box {scope : Scope} {targets : Targets} {call : GateCall} {prepared : Prepared}
    (h : prepare scope targets call = .ok prepared) (hrule : prepared.qubitRule = some .box) :
    call.name = "CIRCBOX" :=
  name_of_lookup_box (lookup_of_qubitRule h hrule)

/-- Nothing but a gate call begins a box. -/
theorem Task.move_boxes {task : Task} {p p' : Progress} {body : List Part} {targets : List Qubit}
    (h : task.move p = .boxes p' body targets) :
    ∃ origin units args, task = .part origin units (.gate ⟨"CIRCBOX", args⟩) ∧
      targets = units.qubits := by
  cases task with
  | node node =>
    cases node with
    | action target count instruction =>
      rw [Task.move, moveAction] at h
      split at h
      · simp at h
      · split at h <;> simp at h
    | conditional target name ifParts elseParts =>
      rw [Task.move, moveConditional] at h
      split at h
      · simp at h
      · dsimp only at h
        split at h <;> simp at h
    | _ => simp [Task.move, runNode, Progress.declare, Move.ofOutcome] at h
  | branches bit ifParts elseParts target => cases target <;> simp [Task.move, moveBranches] at h
  | part origin units part =>
    cases part using partCases p.scope with
    | gate call =>
      obtain ⟨htargets, prepared, hprepared, hrule, -⟩ := moveCall_boxes h
      refine ⟨origin, units, call.args, ?_, htargets⟩
      rw [← name_of_box hprepared hrule]
    | pipeline r parts hr =>
      rw [Task.move, moveNamed_pipeline hr] at h
      simp at h
    | unresolved r hr =>
      rw [Task.move, moveNamed_unresolved hr] at h
      simp at h

theorem head_of_begins {c : Config} {targets : List Qubit} (h : targets ∈ c.begins) :
    ∃ origin units args, c.todo.head? = some (.part origin units (.gate ⟨"CIRCBOX", args⟩)) ∧
      targets = units.qubits := by
  cases c with
  | working p todo =>
    cases todo with
    | nil => simp [begins] at h
    | cons task todo =>
      rw [begins] at h
      split at h
      · rename_i hmove
        rw [List.mem_singleton.mp h]
        obtain ⟨origin, units, args, rfl, htargets⟩ := Task.move_boxes hmove
        exact ⟨origin, units, args, rfl, htargets⟩
      · simp at h
  | boxing p box body targets todo => simp [begins] at h
  | stopped e p => simp [begins] at h

end Calls

section Nesting

theorem resolveArgs_unnamed {args : List Argument} {values : List Value}
    (h : resolveArgs [] args = .ok values) :
    ∃ numbers : List Number, values = numbers.map .number := by
  induction args generalizing values with
  | nil => exact ⟨[], (Except.ok.inj h).symm⟩
  | cons arg args ih =>
    cases arg with
    | name x => simp [resolveArgs, Scope.find?] at h
    | number n =>
      rw [resolveArgs] at h
      cases hrest : resolveArgs [] args with
      | error e => simp [hrest, Except.map] at h
      | ok rest =>
        obtain ⟨numbers, hnumbers⟩ := ih hrest
        rw [hrest, hnumbers] at h
        exact ⟨n :: numbers, (Except.ok.inj h).symm⟩

/-- Where no name is known, it does not matter how boxes are made. -/
theorem runCall_unnamed (box : BoxMaker) (targets : Targets) (condition : Option Condition)
    (call : GateCall) (cs : Circuits) :
    runCall box [] targets condition call cs = runCall noBox [] targets condition call cs := by
  unfold runCall
  cases hprepared : prepare [] targets call with
  | error e => rfl
  | ok prepared =>
    by_cases hrule : prepared.qubitRule = some .box
    · obtain ⟨numbers, hnumbers⟩ := resolveArgs_unnamed (prepare_ok hprepared).1
      obtain ⟨e, hbody, -⟩ := boxBody_numbers numbers condition
      simp only [Prepared.run, hrule, QubitRule.run, hnumbers, hbody]
    · exact Prepared.run_eq_noBox hrule box targets condition cs

theorem runBody_eq_with (box : BoxMaker) (body : List Part) (width : Nat) :
    runPipelineWith box [] ⟨[.default 0], []⟩ none body ⟨.blank width, []⟩ =
      runBody body width := by
  have hcall : runCall box [] ⟨[.default 0], []⟩ none = runCall noBox [] ⟨[.default 0], []⟩ none := by
    funext call cs
    exact runCall_unnamed box _ none call cs
  unfold runBody runPipelineWith
  rw [hcall]

end Nesting

section Numbering

/-- The boxes that have been closed are applied in the main circuit, numbered from one. A box that
is being built comes last, and so does one that has failed. -/
inductive Config.Numbers : List (List Qubit) → Config → Prop
  | working {closed : List (List Qubit)} {p : Progress} {todo : List Task}
      (h : p.circuits.main.applied = closed.zipIdx 1) : Numbers closed (working p todo)
  | boxing {closed : List (List Qubit)} {p : Progress} {box : Circuit} {body : List Part}
      {targets : List Qubit} {todo : List Task}
      (h : p.circuits.main.applied = closed.zipIdx 1) :
    Numbers (closed ++ [targets]) (boxing p box body targets todo)
  | stopped {closed : List (List Qubit)} (failed : Option (List Qubit)) {e : LowerError}
      {p : Progress} (h : p.circuits.main.applied = closed.zipIdx 1) :
    Numbers (closed ++ failed.toList) (stopped e p)

/-- The boxes begun so far are for the given targets, in this order. -/
structure Config.Tracks (begun : List (List Qubit)) (c : Config) : Prop where
  boxes : List.Forall₂ (Records PlainCall) (begun.map fun targets => .blank targets.length) c.boxes
  numbers : c.Numbers begun

variable {begun : List (List Qubit)}

theorem Config.Numbers.applied {c : Config} (h : c.Numbers begun) :
    c.main.applied <+: begun.zipIdx 1 := by
  cases h with
  | working h => exact h ▸ List.prefix_rfl
  | boxing h =>
    rw [List.zipIdx_append, ← h]
    exact List.prefix_append _ _
  | stopped failed h =>
    rw [List.zipIdx_append, ← h]
    exact List.prefix_append _ _

theorem Config.Numbers.applied_eq {p : Progress} {todo : List Task}
    (h : (Config.working p todo).Numbers begun) : p.circuits.main.applied = begun.zipIdx 1 := by
  cases h with
  | working h => exact h

theorem stepBox_numbers {p : Progress} {box : Circuit} {closed : List (List Qubit)}
    (h : p.circuits.main.applied = closed.zipIdx 1) (hlength : p.circuits.boxes.length = closed.length)
    (targets : List Qubit) (todo : List Task) (body : List Part) :
    (stepBox p box targets todo body).Numbers (closed ++ [targets]) := by
  cases body with
  | nil =>
    apply Numbers.working
    rw [applied_closeBox, h, hlength, List.zipIdx_append, List.zipIdx_singleton, Nat.add_comm]
  | cons part body =>
    rw [stepBox]
    cases runBoxPart part ⟨box, []⟩ with
    | done inner => exact .boxing h
    | failed e inner => exact .stopped (some targets) h
    | endless => exact .boxing h

theorem step_numbers {c : Config} (hready : c.Ready) (h : c.Tracks begun) :
    (step c).Numbers (begun ++ c.begins) := by
  obtain ⟨hboxes, hnumbers⟩ := h
  cases hnumbers with
  | @working _ p todo hp =>
    cases todo with
    | nil =>
      rw [begins_nil, List.append_nil]
      exact .working hp
    | cons task todo =>
      have hmain : (step (working p (task :: todo))).main.applied = begun.zipIdx 1 := by
        rw [(step_main hready).applied_eq fun _ => Task.not_isBox_of_allows]
        exact hp
      rw [step] at hmain ⊢
      rw [begins]
      cases hmove : task.move p with
      | opens p' tasks =>
        rw [hmove] at hmain
        rw [List.append_nil]
        exact .working hmain
      | boxes p' body targets =>
        rw [hmove] at hmain
        exact .boxing hmain
      | stops e p' =>
        rw [hmove] at hmain
        exact .stopped none hmain
      | idles =>
        rw [List.append_nil]
        exact .working hp
  | @boxing closed p box body targets todo hp =>
    have hlength : p.circuits.boxes.length = closed.length := by
      have hsame := hboxes.length_eq
      simpa [Config.boxes] using hsame.symm
    rw [begins_boxing, List.append_nil]
    exact stepBox_numbers hp hlength targets todo body
  | stopped failed hp =>
    rw [begins_stopped, List.append_nil]
    exact .stopped failed hp

theorem step_tracks {c : Config} (hready : c.Ready) (h : c.Tracks begun) :
    (step c).Tracks (begun ++ c.begins) := by
  refine ⟨?_, step_numbers hready h⟩
  have hbegun := List.rel_append h.boxes
    (forall₂_records_refl (c.begins.map fun targets => .blank targets.length))
  rw [List.map_append]
  exact forall₂_records_trans hbegun (step_boxes hready)

/-- The targets of the boxes that a program begins within some number of steps. -/
def boxTargets (nodes : List Node) (n : Nat) : List (List Qubit) :=
  (List.range n).flatMap fun k => (step^[k] (start nodes)).begins

theorem tracks_iterate (nodes : List Node) (n : Nat) :
    (step^[n] (start nodes)).Tracks (boxTargets nodes n) := by
  induction n with
  | zero => exact ⟨.nil, .working rfl⟩
  | succ n ih =>
    have hsucc : boxTargets nodes (n + 1) =
        boxTargets nodes n ++ (step^[n] (start nodes)).begins := by
      rw [boxTargets, List.range_succ, List.flatMap_append, List.flatMap_singleton]
      rfl
    rw [hsucc, Function.iterate_succ_apply']
    exact step_tracks (ready_iterate (start_ready nodes) n) ih

theorem boxes_iterate (nodes : List Node) (n : Nat) :
    List.Forall₂ BoxFor (boxTargets nodes n) (step^[n] (start nodes)).boxes := by
  have hboxes := List.forall₂_map_left_iff.mp (tracks_iterate nodes n).boxes
  exact hboxes.imp fun _ _ => boxFor_of_records

end Numbering

/-- The boxes of a program. If lowering is done, the main circuit applies the boxes in the order in
which they were begun, each of them once and under its number. However it ends, and wherever it is
stopped, the boxes are those that gate calls have begun, each for the qubits among the targets of
its call; and the boxes that the main circuit applies are the first of them. The body of a box comes
to the same however boxes are made, for it makes none. -/
theorem boxes_structured (nodes : List Node) :
    (∀ cs, lower nodes = done cs → ∃ n, (step^[n] (start nodes)).Halted ∧
      cs.main.applied = (boxTargets nodes n).zipIdx 1 ∧
      List.Forall₂ BoxFor (boxTargets nodes n) cs.boxes) ∧
    ((lower nodes).Ensures fun cs => ∃ n, (step^[n] (start nodes)).Halted ∧
      cs.main.applied <+: (boxTargets nodes n).zipIdx 1 ∧
      List.Forall₂ BoxFor (boxTargets nodes n) cs.boxes) ∧
    (∀ n, (step^[n] (start nodes)).main.applied <+: (boxTargets nodes n).zipIdx 1 ∧
      List.Forall₂ BoxFor (boxTargets nodes n) (step^[n] (start nodes)).boxes ∧
      ∀ targets ∈ (step^[n] (start nodes)).begins, ∃ origin units args,
        (step^[n] (start nodes)).todo.head? =
          some (.part origin units (.gate ⟨"CIRCBOX", args⟩)) ∧ targets = units.qubits) ∧
    ∀ box body width, runPipelineWith box [] ⟨[.default 0], []⟩ none body ⟨.blank width, []⟩ =
      runBody body width := by
  have hnumbers : ∀ n, (step^[n] (start nodes)).Numbers (boxTargets nodes n) :=
    fun n => (tracks_iterate nodes n).numbers
  have hboxes := boxes_iterate nodes
  refine ⟨fun cs hdone => ?_, fun cs hcs => ?_, fun n => ?_, runBody_eq_with⟩
  · obtain ⟨scope, n, hn⟩ := lower_eq_done_iff.mp hdone
    have hdone := hnumbers n
    have hfor := hboxes n
    rw [hn] at hdone hfor
    exact ⟨n, by rw [hn]; rfl, hdone.applied_eq, hfor⟩
  · obtain ⟨n, hhalted, hcircuits⟩ := lower_halts nodes cs hcs
    obtain ⟨hmain, hrest⟩ := List.cons.inj hcircuits
    rw [← hmain, ← hrest]
    exact ⟨n, hhalted, (hnumbers n).applied, hboxes n⟩
  · exact ⟨(hnumbers n).applied, hboxes n, fun targets => head_of_begins⟩

/-- A program that boxes one pipeline for two qubits, and then for another one. -/
def boxesProgram : List Node :=
  [.instruction "turn" [.gate ⟨"H", []⟩],
    .action (.list [.number (.int 0), .number (.int 1)]) none
      (.parts [.gate ⟨"CIRCBOX", [.name "turn"]⟩]),
    .action (.index 2) none (.parts [.gate ⟨"CIRCBOX", [.name "turn"]⟩])]

theorem boxes_structured_twice : ∃ cs, lower boxesProgram = done cs ∧
    cs.main.applied = [([.default 0, .default 1], 1), ([.default 2], 2)] ∧
    List.Forall₂ BoxFor [[.default 0, .default 1], [.default 2]] cs.boxes := by
  obtain ⟨cs, hdone, happlied⟩ : ∃ cs, lower boxesProgram = done cs ∧
      cs.main.applied = [([.default 0, .default 1], 1), ([.default 2], 2)] := ⟨_, rfl, rfl⟩
  obtain ⟨n, -, hnumbers, hboxes⟩ := (boxes_structured boxesProgram).1 cs hdone
  have htargets : boxTargets boxesProgram n = [[.default 0, .default 1], [.default 2]] := by
    rw [← List.zipIdx_map_fst 1 (boxTargets boxesProgram n), ← hnumbers, happlied]
    rfl
  rw [htargets] at hboxes
  exact ⟨cs, hdone, happlied, hboxes⟩

end Lower

end GateScript
