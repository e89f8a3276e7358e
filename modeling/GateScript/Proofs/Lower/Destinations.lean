import GateScript.Compile
import GateScript.Proofs.Lower.Contribution

/-!
Measured qubits that share a bit.

Without an argument the outcome of a qubit goes to the bit of its index, whatever its register. So
qubits of different registers can be measured into the same bit, where the later outcome replaces
the earlier one. Measuring all qubits at once gives each of them a bit of its own.
-/
namespace GateScript

/-- The qubits that calls measure, each with the bit for its outcome, in a circuit with the given
qubits. -/
def outcomesOf (qubits : List Qubit) (calls : List Call) : List (Qubit × Bit) :=
  calls.flatMap (·.operation.outcomes qubits)

theorem outcomesOf_cons (qubits : List Qubit) (call : Call) (calls : List Call) :
    outcomesOf qubits (call :: calls) =
      call.operation.outcomes qubits ++ outcomesOf qubits calls := List.flatMap_cons

/-- Adding a unit measures nothing. -/
theorem outcomes_of_adds {operation : Operation} (h : operation.adds = true)
    (qubits : List Qubit) : operation.outcomes qubits = [] := by
  cases operation with
  | addQubit q | addBit b => rfl
  | _ => simp [Operation.adds] at h

theorem outcomesOf_effects (qubits : List Qubit) (calls : List Call) :
    outcomesOf qubits (effects calls) = outcomesOf qubits calls := by
  induction calls with
  | nil => rfl
  | cons call calls ih =>
    rw [effects] at ih ⊢
    cases hadds : call.operation.adds with
    | true => simp [hadds, outcomesOf_cons, outcomes_of_adds hadds, ih]
    | false => simp [hadds, outcomesOf_cons, ih]

theorem outcomesOf_measures (qubits targets : List Qubit) :
    outcomesOf qubits (targets.map fun q => ⟨.measure q (.default q.index), none⟩) =
      targets.map fun q => (q, .default q.index) := by
  rw [outcomesOf, List.flatMap_map]
  exact List.flatMap_pure_eq_map _ targets

theorem nodup_default_iff {α : Type} (index : α → Nat) (as : List α) :
    (as.map fun a => Bit.default (index a)).Nodup ↔ as.Pairwise fun a b => index a ≠ index b := by
  rw [List.Nodup, List.pairwise_map]
  simp [Bit.default]

/-- All qubits at once are measured into bits of their own. -/
theorem nodup_outcomesOf_measureAll (qubits : List Qubit) :
    ((outcomesOf qubits [⟨.measureAll, none⟩]).map Prod.snd).Nodup := by
  have hplaces : (qubits.zipIdx.map Prod.snd).Nodup := by
    rw [List.zipIdx_map_snd]
    exact List.nodup_range'
  simp only [outcomesOf, Operation.outcomes, List.flatMap_cons, List.flatMap_nil, List.append_nil,
    List.map_map]
  exact (nodup_default_iff Prod.snd qubits.zipIdx).mpr (List.pairwise_map.mp hplaces)

/-- Distinct qubits of one register have distinct indices. -/
theorem index_ne_of_register {register : String} {targets : List Qubit} (h : targets.Nodup)
    (hregister : ∀ q ∈ targets, q.register = register) :
    targets.Pairwise fun a b => a.index ≠ b.index := by
  refine List.Pairwise.imp_of_mem ?_ h
  intro a b ha hb hne hindex
  have hsame : a.register = b.register := (hregister a ha).trans (hregister b hb).symm
  exact hne (by cases a; cases b; simp_all)

namespace Lower

open Program Outcome Circuit

variable {targets : List Qubit} {c : Circuit}

/-- A measurement without argument brings in its targets and measures them. -/
theorem runCall_measurement {name : String} (hname : name = "M" ∨ name = "MEASURE") (box : BoxMaker)
    (scope : Scope) (hne : targets ≠ []) (boxes : List Circuit) :
    runCall box scope ⟨targets, []⟩ none ⟨name, []⟩ ⟨c, boxes⟩ =
      .done ⟨measureQubits [] none targets (c.ensureQubits targets), boxes⟩ := by
  have hlookup : qubitRules.lookup name = some .measure := by
    rcases hname with rfl | rfl <;> decide
  simp [runCall_qubits hne, resolveArgs, hlookup, QubitRule.run, onMain]

/-- Some of the circuit's qubits are left out: each target is measured into the bit of its index. -/
theorem measureQubits_outcomes (hsome : ¬c.qubits ⊆ targets) (qubits : List Qubit) :
    ∃ new, (measureQubits [] none targets (c.ensureQubits targets)).calls = c.calls ++ new ∧
      ⟨.measureAll, none⟩ ∉ new ∧
      outcomesOf qubits new = targets.map fun q => (q, .default q.index) := by
  have hgains : c.Gains (targets.map fun q => ⟨.measure q (.default q.index), none⟩)
      (measureQubits [] none targets (c.ensureQubits targets)) := by
    rw [measureQubits_eq_foldl (.inr hsome)]
    exact (gains_ensureQubits c targets).trans (gains_foldl (gains_measureOne none none) _ targets)
  obtain ⟨new, hnew, heffects⟩ := hgains
  refine ⟨new, hnew, fun hall => ?_, ?_⟩
  · have hmem : ⟨.measureAll, none⟩ ∈ effects new := List.mem_filter.mpr ⟨hall, rfl⟩
    simp [heffects] at hmem
  · rw [← outcomesOf_effects, heffects, outcomesOf_measures]

theorem measureQubits_outcomes_all (hall : c.qubits ⊆ targets) (qubits : List Qubit) :
    ∃ new, (measureQubits [] none targets (c.ensureQubits targets)).calls = c.calls ++ new ∧
      ⟨.measureAll, none⟩ ∈ new ∧
      outcomesOf qubits new = outcomesOf qubits [⟨.measureAll, none⟩] := by
  have hgains : c.Gains [⟨.measureAll, none⟩]
      (measureQubits [] none targets (c.ensureQubits targets)) := by
    rw [measureQubits_eq_measureAll hall]
    exact (gains_ensureQubits c targets).trans ⟨[⟨.measureAll, none⟩], rfl, rfl⟩
  obtain ⟨new, hnew, heffects⟩ := hgains
  refine ⟨new, hnew, ?_, ?_⟩
  · have hmem : ⟨.measureAll, none⟩ ∈ effects new := by simp [heffects]
    exact (List.mem_filter.mp hmem).1
  · rw [← outcomesOf_effects, heffects]

/-- Measuring distinct qubits without an argument. If they are not all the qubits there are, each is
measured into the bit of its index, so the bits are distinct exactly if the indices are: always
within one register, but not for qubits of different registers that share an index. All qubits at
once are measured into distinct bits. -/
theorem shared_destinations (c : Circuit) {targets : List Qubit} (hne : targets ≠ [])
    (hdistinct : targets.Nodup) {name : String} (hname : name = "M" ∨ name = "MEASURE")
    (box : BoxMaker) (scope : Scope) (boxes : List Circuit) :
    ∃ c' new, runCall box scope ⟨targets, []⟩ none ⟨name, []⟩ ⟨c, boxes⟩ = .done ⟨c', boxes⟩ ∧
      c'.calls = c.calls ++ new ∧ (⟨.measureAll, none⟩ ∈ new ↔ c.qubits ⊆ targets) ∧
      (¬c.qubits ⊆ targets →
        outcomesOf c'.qubits new = targets.map (fun q => (q, .default q.index)) ∧
        (((outcomesOf c'.qubits new).map Prod.snd).Nodup ↔
          targets.Pairwise fun a b => a.index ≠ b.index) ∧
        ∀ register, (∀ q ∈ targets, q.register = register) →
          ((outcomesOf c'.qubits new).map Prod.snd).Nodup) ∧
      (c.qubits ⊆ targets → ((outcomesOf c'.qubits new).map Prod.snd).Nodup) := by
  rw [runCall_measurement hname box scope hne boxes]
  refine ⟨measureQubits [] none targets (c.ensureQubits targets), ?_⟩
  by_cases hall : c.qubits ⊆ targets
  · obtain ⟨new, hnew, hmem, houtcomes⟩ := measureQubits_outcomes_all hall
      (measureQubits [] none targets (c.ensureQubits targets)).qubits
    refine ⟨new, rfl, hnew, iff_of_true hmem hall, fun hsome => absurd hall hsome, fun _ => ?_⟩
    rw [houtcomes]
    exact nodup_outcomesOf_measureAll _
  · obtain ⟨new, hnew, hmem, houtcomes⟩ := measureQubits_outcomes hall
      (measureQubits [] none targets (c.ensureQubits targets)).qubits
    have hiff : ((outcomesOf (measureQubits [] none targets (c.ensureQubits targets)).qubits
        new).map Prod.snd).Nodup ↔ targets.Pairwise fun a b => a.index ≠ b.index := by
      rw [houtcomes, List.map_map]
      exact nodup_default_iff Qubit.index targets
    refine ⟨new, rfl, hnew, iff_of_false hmem hall, fun _ => ⟨houtcomes, hiff, fun _ h => ?_⟩,
      fun h => absurd h hall⟩
    exact hiff.mpr (index_ne_of_register hdistinct h)

/-- Two qubits that share an index are measured while a third is left out. -/
theorem shared_destinations_twins :
    ∃ c' new, runCall makeBox [] ⟨[⟨"left", 3⟩, ⟨"right", 3⟩], []⟩ none ⟨"M", []⟩ ⟨.blank 1, []⟩ =
        .done ⟨c', []⟩ ∧ c'.calls = [] ++ new ∧
      outcomesOf c'.qubits new = [(⟨"left", 3⟩, .default 3), (⟨"right", 3⟩, .default 3)] ∧
      ¬((outcomesOf c'.qubits new).map Prod.snd).Nodup := by
  obtain ⟨c', new, hrun, hcalls, -, hsome, -⟩ := shared_destinations (.blank 1)
    (List.cons_ne_nil ⟨"left", 3⟩ [⟨"right", 3⟩]) (by decide) (.inl rfl) makeBox [] []
  obtain ⟨houtcomes, hiff, -⟩ := hsome (by decide)
  exact ⟨c', new, hrun, hcalls, houtcomes, fun h => absurd (hiff.mp h) (by decide)⟩

/-- The outcomes of two qubits are put into the first bit, one after the other. -/
theorem circuitsOfText_twins :
    circuitsOfText "x : q left 0\ny : q right 0\n0 -> H\n[x, y] -> M" =
      .ok (.done ⟨⟨0, [⟨.addQubit (.default 0), none⟩, ⟨.addBit (.default 0), none⟩,
        ⟨.gate .h [] [.default 0], none⟩, ⟨.addQubit ⟨"left", 0⟩, none⟩,
        ⟨.addQubit ⟨"right", 0⟩, none⟩, ⟨.measure ⟨"left", 0⟩ (.default 0), none⟩,
        ⟨.measure ⟨"right", 0⟩ (.default 0), none⟩],
        [⟨"left", 0⟩, .default 0, ⟨"right", 0⟩], [.default 0]⟩, []⟩) := by
  decide +kernel

end Lower

end GateScript
