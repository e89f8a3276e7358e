import GateScript.Proofs.Lower.Growth

/-!
Where the outcomes of measurements go.

The qubits of a circuit are kept in order, and measuring all of them at once numbers the bits by
their places. Measuring them one after the other numbers the bits by their indices. The two agree
exactly if the qubits are the first ones of the default register.
-/
namespace GateScript

section Ordering

theorem Qubit.precedes_iff {a b : Qubit} : a.precedes b = true ↔
    a.register < b.register ∨ a.register = b.register ∧ a.index < b.index := by
  simp [Qubit.precedes]

theorem Qubit.precedes_trans {a b c : Qubit} (hab : a.precedes b = true)
    (hbc : b.precedes c = true) : a.precedes c = true := by
  rw [precedes_iff] at *
  rcases hab with hab | ⟨hab, hlt⟩ <;> rcases hbc with hbc | ⟨hbc, hlt'⟩
  · exact .inl (String.lt_trans hab hbc)
  · exact .inl (hbc ▸ hab)
  · exact .inl (hab ▸ hbc)
  · exact .inr ⟨hab.trans hbc, hlt.trans hlt'⟩

theorem Qubit.precedes_of_not {a b : Qubit} (h : ¬a.precedes b = true) (hne : a ≠ b) :
    b.precedes a = true := by
  rw [precedes_iff] at *
  obtain ⟨hregister, hindex⟩ := not_or.mp h
  by_cases heq : a.register = b.register
  · have hne : a.index ≠ b.index := fun hi => hne (by cases a; cases b; simp_all)
    have hle : ¬a.index < b.index := fun hlt => hindex ⟨heq, hlt⟩
    exact .inr ⟨heq.symm, by omega⟩
  · have hle : b.register ≤ a.register := String.not_lt.mp hregister
    refine .inl (String.not_le.mp fun hle' => heq (String.le_antisymm hle' hle))

/-- The qubits stand in order, each once. -/
def Circuit.Ordered (c : Circuit) : Prop := c.qubits.Pairwise fun a b => a.precedes b = true

theorem pairwise_insertOrdered {q : Qubit} {qs : List Qubit}
    (hqs : qs.Pairwise fun a b => a.precedes b = true) (hq : q ∉ qs) :
    (insertOrdered Qubit.precedes q qs).Pairwise fun a b => a.precedes b = true := by
  induction qs with
  | nil => simp [insertOrdered]
  | cons x qs ih =>
    obtain ⟨hx, hqs'⟩ := List.pairwise_cons.mp hqs
    obtain ⟨hqx, hq⟩ := not_or.mp (mt List.mem_cons.mpr hq)
    rw [insertOrdered]
    split
    · rename_i hlt
      refine List.pairwise_cons.mpr ⟨fun y hy => ?_, hqs⟩
      rcases List.mem_cons.mp hy with rfl | hy
      · exact hlt
      · exact Qubit.precedes_trans hlt (hx y hy)
    · rename_i hle
      refine List.pairwise_cons.mpr ⟨fun y hy => ?_, ih hqs' hq⟩
      rcases mem_insertOrdered.mp hy with rfl | hy
      · exact Qubit.precedes_of_not hle hqx
      · exact hx y hy

theorem Circuit.ordered_blank (width : Nat) : (blank width).Ordered := by
  rw [Ordered, blank, List.pairwise_map]
  refine List.pairwise_lt_range.imp ?_
  intro i j hij
  rw [Qubit.precedes_iff]
  exact .inr ⟨rfl, hij⟩

theorem Circuit.Ordered.enter {c : Circuit} {call : Call} (h : c.Ordered)
    (hcall : c.units.Admits call) : (c.enter call).Ordered := by
  obtain ⟨operation, condition⟩ := call
  cases operation with
  | addQubit q =>
    have hnew : q ∉ c.qubits := by simpa [units] using hcall.newQubit q rfl
    exact pairwise_insertOrdered h hnew
  | _ => exact h

theorem Lower.ordered_iterate (nodes : List Program.Node) (n : Nat) :
    ∀ c ∈ (step^[n] (Config.start nodes)).circuits, c.Ordered :=
  forall_circuits_iterate Circuit.ordered_blank (fun _ _ h hcall => h.enter hcall) nodes n

end Ordering

section Outcomes

/-- The qubits that an operation measures, each with the bit for its outcome, in a circuit with the
given qubits. All qubits at once go to the bits of the default register, by their places. -/
def Operation.outcomes (qubits : List Qubit) : Operation → List (Qubit × Bit)
  | .measure q b => [(q, b)]
  | .measureAll => qubits.zipIdx.map fun entry => (entry.1, .default entry.2)
  | _ => []

/-- Some of the calls puts the outcome of a qubit into a bit. -/
def Measures (qubits : List Qubit) (calls : List Call) (q : Qubit) (b : Bit) : Prop :=
  ∃ call ∈ calls, (q, b) ∈ call.operation.outcomes qubits

instance (qubits : List Qubit) (calls : List Call) (q : Qubit) (b : Bit) :
    Decidable (Measures qubits calls q b) :=
  inferInstanceAs (Decidable (∃ call ∈ calls, (q, b) ∈ call.operation.outcomes qubits))

variable {qubits : List Qubit} {calls calls' : List Call} {q q' : Qubit} {b b' : Bit}

theorem measures_append :
    Measures qubits (calls ++ calls') q b ↔
      Measures qubits calls q b ∨ Measures qubits calls' q b := by
  simp only [Measures, List.mem_append, or_and_right, exists_or]

@[simp] theorem not_measures_nil : ¬Measures qubits [] q b := by simp [Measures]

@[simp] theorem not_measures_addBit : ¬Measures qubits [⟨.addBit b', none⟩] q b := by
  simp [Measures, Operation.outcomes]

@[simp] theorem measures_measure {condition : Option Condition} :
    Measures qubits [⟨.measure q' b', condition⟩] q b ↔ q = q' ∧ b = b' := by
  simp [Measures, Operation.outcomes]

theorem measures_measureAll :
    Measures qubits [⟨.measureAll, none⟩] q b ↔ ∃ i, qubits[i]? = some q ∧ b = .default i := by
  simp only [Measures, Operation.outcomes, List.mem_singleton, exists_eq_left, List.mem_map,
    Prod.mk.injEq, Prod.exists, List.mem_zipIdx_iff_getElem?]
  constructor
  · rintro ⟨q', i, hi, rfl, rfl⟩
    exact ⟨i, hi, rfl⟩
  · rintro ⟨i, hi, rfl⟩
    exact ⟨q, i, hi, rfl, rfl⟩

end Outcomes

section Places

variable {qubits : List Qubit}

/-- Within one register the order is that of the indices. -/
theorem Circuit.Ordered.index_lt {c : Circuit} (h : c.Ordered) {register : String}
    (hregister : ∀ q ∈ c.qubits, q.register = register) :
    c.qubits.Pairwise fun a b => a.index < b.index := by
  refine List.Pairwise.imp_of_mem ?_ h
  intro a b ha hb hab
  rcases Qubit.precedes_iff.mp hab with hlt | ⟨-, hlt⟩
  · rw [hregister a ha, hregister b hb] at hlt
    exact absurd hlt (String.lt_irrefl register)
  · exact hlt

/-- How many qubits have a smaller index than the given one. -/
def smaller (qubits : List Qubit) (q : Qubit) : Nat := qubits.countP (·.index < q.index)

/-- The place of a qubit is the number of those that have a smaller index. -/
theorem smaller_eq (h : qubits.Pairwise fun a b => a.index < b.index) {i : Nat} {q : Qubit}
    (hi : qubits[i]? = some q) : smaller qubits q = i := by
  unfold smaller
  induction qubits generalizing i with
  | nil => simp at hi
  | cons x qubits ih =>
    obtain ⟨hx, hqubits⟩ := List.pairwise_cons.mp h
    cases i with
    | zero =>
      obtain rfl : x = q := by simpa using hi
      have hnone : qubits.countP (·.index < x.index) = 0 := by
        rw [List.countP_eq_zero]
        intro y hy
        have hlt := hx y hy
        simp only [decide_eq_true_eq]
        omega
      simp [hnone]
    | succ i =>
      have hi : qubits[i]? = some q := by simpa using hi
      have hlt : x.index < q.index := hx q (List.mem_of_getElem? hi)
      simp [hlt, ih hqubits hi]

theorem measures_measureAll_iff (h : qubits.Pairwise fun a b => a.index < b.index) {q : Qubit}
    (hq : q ∈ qubits) (b : Bit) :
    Measures qubits [⟨.measureAll, none⟩] q b ↔ b = .default (smaller qubits q) := by
  rw [measures_measureAll]
  constructor
  · rintro ⟨i, hi, rfl⟩
    rw [smaller_eq h hi]
  · rintro rfl
    obtain ⟨i, hi⟩ := List.mem_iff_getElem?.mp hq
    exact ⟨i, hi, by rw [smaller_eq h hi]⟩

/-- Places and indices agree exactly for the first qubits of the default register. -/
theorem smaller_eq_index_iff (h : qubits.Pairwise fun a b => a.index < b.index)
    (hregister : ∀ q ∈ qubits, q.register = "q") :
    (∀ q ∈ qubits, smaller qubits q = q.index) ↔
      qubits = (List.range qubits.length).map .default := by
  constructor
  · intro hall
    refine List.ext_getElem (by simp) fun i hi _ => ?_
    have hmem : qubits[i] ∈ qubits := List.getElem_mem hi
    have hplace : smaller qubits qubits[i] = i := smaller_eq h (List.getElem?_eq_getElem hi)
    have hindex : qubits[i].index = i := by rw [← hall _ hmem, hplace]
    calc qubits[i] = ⟨qubits[i].register, qubits[i].index⟩ := rfl
      _ = .default i := by rw [hregister _ hmem, hindex, Qubit.default]
      _ = ((List.range qubits.length).map Qubit.default)[i] := by simp
  · intro heq q hq
    obtain ⟨i, hi⟩ := List.mem_iff_getElem?.mp hq
    rw [smaller_eq h hi]
    rw [heq, List.getElem?_map] at hi
    obtain ⟨j, hj, rfl⟩ := Option.map_eq_some_iff.mp hi
    rw [List.getElem?_eq_some_iff] at hj
    obtain ⟨hlt, hj⟩ := hj
    rw [List.getElem_range] at hj
    exact hj

end Places

namespace Lower

open Program Outcome Circuit Config

section Measuring

variable {qubits targets : List Qubit} {c : Circuit}

theorem sameElements_iff : sameElements targets qubits = true ↔
    targets ⊆ qubits ∧ qubits ⊆ targets := by
  simp [sameElements, List.subset_def]

theorem ensureQubits_of_subset (h : targets ⊆ c.qubits) : c.ensureQubits targets = c := by
  rw [ensureQubits]
  induction targets with
  | nil => rfl
  | cons q targets ih =>
    obtain ⟨hq, htargets⟩ := List.cons_subset.mp h
    have hensure : c.ensureQubit q = c := by simp [ensureQubit, hq]
    rw [List.foldl_cons, hensure, ih htargets]

/-- A qubit on its own is measured into the bit of its index. -/
theorem measureOne_calls (qubits : List Qubit) (c : Circuit) (q : Qubit) :
    ∃ new, (measureOne none none c q).calls = c.calls ++ new ∧
      ∀ q' b, Measures qubits new q' b ↔ q' = q ∧ b = .default q.index := by
  simp only [measureOne, Option.getD_none, ensureBit, record]
  split
  · exact ⟨[_], rfl, fun _ _ => measures_measure⟩
  · refine ⟨[_, _], List.append_assoc _ _ _, fun q' b => ?_⟩
    rw [← List.singleton_append, measures_append]
    simp

theorem measureOne_qubits (c : Circuit) (q : Qubit) :
    (measureOne none none c q).qubits = c.qubits := by
  simp only [measureOne, ensureBit, record]
  split <;> rfl

theorem foldl_measureOne (qubits targets : List Qubit) (c : Circuit) :
    (targets.foldl (measureOne none none) c).qubits = c.qubits ∧
    ∃ new, (targets.foldl (measureOne none none) c).calls = c.calls ++ new ∧
      ∀ q b, Measures qubits new q b ↔ q ∈ targets ∧ b = .default q.index := by
  induction targets generalizing c with
  | nil => exact ⟨rfl, [], by simp, by simp⟩
  | cons x targets ih =>
    obtain ⟨first, hfirst, hmeasures⟩ := measureOne_calls qubits c x
    obtain ⟨hqubits, rest, hrest, hmeasures'⟩ := ih (measureOne none none c x)
    refine ⟨by rw [List.foldl_cons, hqubits, measureOne_qubits], first ++ rest, ?_, ?_⟩
    · rw [List.foldl_cons, hrest, hfirst, List.append_assoc]
    · intro q b
      rw [measures_append, hmeasures, hmeasures', List.mem_cons]
      constructor
      · rintro (⟨rfl, rfl⟩ | ⟨hq, rfl⟩)
        · exact ⟨.inl rfl, rfl⟩
        · exact ⟨.inr hq, rfl⟩
      · rintro ⟨rfl | hq, rfl⟩
        · exact .inl ⟨rfl, rfl⟩
        · exact .inr ⟨hq, rfl⟩

/-- Measuring qubits that are present, without arguments and unconditionally. -/
theorem runCall_measure {name : String} (hname : name = "M" ∨ name = "MEASURE") (box : BoxMaker)
    (scope : Scope) (hne : targets ≠ []) (htargets : targets ⊆ c.qubits) (boxes : List Circuit) :
    runCall box scope ⟨targets, []⟩ none ⟨name, []⟩ ⟨c, boxes⟩ =
      done ⟨measureQubits [] none targets c, boxes⟩ := by
  have hlookup : qubitRules.lookup name = some .measure := by
    rcases hname with rfl | rfl <;> decide
  have hempty : targets.isEmpty = false := by simpa using hne
  simp [runCall, prepare, resolveArgs, findRule, hempty, hlookup, Prepared.run, QubitRule.run,
    onMain, ensureQubits_of_subset htargets]

/-- The outcome of every target goes to the bit of its index, and nowhere else. -/
def StoredByIndex (qubits : List Qubit) (calls : List Call) (targets : List Qubit) : Prop :=
  ∀ q ∈ targets, ∀ b, Measures qubits calls q b ↔ b = .default q.index

theorem measureQubits_some (hsome : ¬c.qubits ⊆ targets) :
    (measureQubits [] none targets c).qubits = c.qubits ∧
    ∃ new, (measureQubits [] none targets c).calls = c.calls ++ new ∧
      StoredByIndex c.qubits new targets := by
  have hpath : measureQubits [] none targets c = targets.foldl (measureOne none none) c := by
    have hnot : sameElements targets c.qubits = false :=
      Bool.eq_false_iff.mpr fun h => hsome (sameElements_iff.mp h).2
    simp [measureQubits, hnot]
  obtain ⟨hqubits, new, hcalls, hmeasures⟩ := foldl_measureOne c.qubits targets c
  rw [hpath]
  refine ⟨hqubits, new, hcalls, fun q hq b => ?_⟩
  rw [hmeasures]
  exact and_iff_right hq

theorem measureQubits_all (htargets : targets ⊆ c.qubits) (hall : c.qubits ⊆ targets) :
    measureQubits [] none targets c = c.measureAll := by
  simp [measureQubits, sameElements_iff.mpr ⟨htargets, hall⟩]

theorem storedByIndex_all_iff (h : c.qubits.Pairwise fun a b => a.index < b.index)
    (hregister : ∀ q ∈ c.qubits, q.register = "q") (htargets : targets ⊆ c.qubits)
    (hall : c.qubits ⊆ targets) :
    StoredByIndex c.qubits [⟨.measureAll, none⟩] targets ↔
      c.qubits = (List.range c.qubits.length).map .default := by
  rw [← smaller_eq_index_iff h hregister]
  constructor
  · intro hstored q hq
    have hmeasures := (measures_measureAll_iff h hq _).mpr rfl
    exact (Bit.mk.inj ((hstored q (hall hq) _).mp hmeasures)).2
  · intro hindex q hq b
    rw [measures_measureAll_iff h (htargets hq), hindex q (htargets hq)]

end Measuring

/-- Measuring qubits of a circuit of the default register. One after the other they go to the bits
of their indices. If they are all there are, they are measured at once, and each goes to the bit
whose index is the number of smaller ones. So every outcome is in the bit of its index exactly if a
qubit is left out or the qubits are the first ones of the register. -/
theorem measurement_destinations {nodes : List Node} {n : Nat} {c : Circuit}
    (hc : c ∈ (step^[n] (start nodes)).circuits) (hregister : ∀ q ∈ c.qubits, q.register = "q")
    {targets : List Qubit} (hne : targets ≠ []) (htargets : targets ⊆ c.qubits) {name : String}
    (hname : name = "M" ∨ name = "MEASURE") (box : BoxMaker) (scope : Scope)
    (boxes : List Circuit) :
    ∃ c' new, runCall box scope ⟨targets, []⟩ none ⟨name, []⟩ ⟨c, boxes⟩ = done ⟨c', boxes⟩ ∧
      c'.qubits = c.qubits ∧ c'.calls = c.calls ++ new ∧
      (¬c.qubits ⊆ targets → StoredByIndex c.qubits new targets) ∧
      (c.qubits ⊆ targets → new = [⟨.measureAll, none⟩] ∧
        ∀ q ∈ targets, ∀ b, Measures c.qubits new q b ↔ b = .default (smaller c.qubits q)) ∧
      (StoredByIndex c.qubits new targets ↔
        ¬c.qubits ⊆ targets ∨ c.qubits = (List.range c.qubits.length).map .default) := by
  have hordered := (ordered_iterate nodes n c hc).index_lt hregister
  rw [runCall_measure hname box scope hne htargets boxes]
  by_cases hall : c.qubits ⊆ targets
  · rw [measureQubits_all htargets hall]
    have hiff := storedByIndex_all_iff hordered hregister htargets hall
    refine ⟨_, [⟨.measureAll, none⟩], rfl, rfl, rfl, fun hsome => absurd hall hsome, ?_, ?_⟩
    · exact fun _ => ⟨rfl, fun q hq b => measures_measureAll_iff hordered (htargets hq) b⟩
    · rw [hiff]
      exact (or_iff_right (not_not_intro hall)).symm
  · obtain ⟨hqubits, new, hcalls, hstored⟩ := measureQubits_some hall
    exact ⟨_, new, rfl, hqubits, hcalls, fun _ => hstored, fun h => absurd h hall,
      iff_of_true hstored (.inl hall)⟩

/-- A program that uses the first and the third qubit. -/
def gapProgram : List Node :=
  [.action (.list [.number (.int 0), .number (.int 2)]) none (.parts [.gate ⟨"H", []⟩])]

def gapCircuit : Circuit := (step^[2] (start gapProgram)).main

theorem measurement_destinations_gap :
    gapCircuit.qubits = [.default 0, .default 2] ∧
    (∃ c' new, runCall makeBox [] ⟨[.default 2], []⟩ none ⟨"M", []⟩ ⟨gapCircuit, []⟩ =
        done ⟨c', []⟩ ∧ c'.calls = gapCircuit.calls ++ new ∧
      Measures gapCircuit.qubits new (.default 2) (.default 2)) ∧
    ∃ c' new, runCall makeBox [] ⟨[.default 2, .default 0], []⟩ none ⟨"MEASURE", []⟩
        ⟨gapCircuit, []⟩ = done ⟨c', []⟩ ∧ c'.calls = gapCircuit.calls ++ new ∧
      ∀ b, Measures gapCircuit.qubits new (.default 2) b ↔ b = .default 1 := by
  have hreach : gapCircuit ∈ (step^[2] (start gapProgram)).circuits := List.mem_cons_self
  have hqubits : gapCircuit.qubits = [.default 0, .default 2] := by decide
  have hregister : ∀ q ∈ gapCircuit.qubits, q.register = "q" := by decide
  obtain ⟨c₁, new₁, hrun₁, -, hcalls₁, hsome, -, -⟩ := measurement_destinations hreach hregister
    (List.cons_ne_nil (.default 2) []) (by decide) (.inl rfl) makeBox [] []
  obtain ⟨c₂, new₂, hrun₂, -, hcalls₂, -, hall, -⟩ := measurement_destinations hreach hregister
    (List.cons_ne_nil (.default 2) [.default 0]) (by decide) (.inr rfl) makeBox [] []
  refine ⟨hqubits, ⟨c₁, new₁, hrun₁, hcalls₁, ?_⟩, c₂, new₂, hrun₂, hcalls₂, ?_⟩
  · exact (hsome (by decide) _ List.mem_cons_self _).mpr rfl
  · exact (hall (by decide)).2 _ List.mem_cons_self

/-- A program that uses the sixth qubit alone, and measures it. -/
def lonelyProgram : List Node :=
  [.action (.index 5) none (.parts [.gate ⟨"H", []⟩]),
    .action (.index 5) none (.parts [.gate ⟨"M", []⟩])]

/-- The outcome of a qubit that is measured as the only one is in the first bit, not in the one of
its index. -/
theorem lower_lonely :
    (∀ c ∈ (step^[2] (start lonelyProgram)).circuits, c.qubits = [.default 5]) ∧
    ∃ c, lower lonelyProgram = done ⟨c, []⟩ ∧ c.qubits = [.default 5] ∧
      Measures c.qubits c.calls (.default 5) (.default 0) ∧
      ¬Measures c.qubits c.calls (.default 5) (.default 5) := by
  refine ⟨by decide, (step^[4] (start lonelyProgram)).main, ?_, ?_, ?_, ?_⟩ <;> decide

end Lower

end GateScript
