import GateScript.Compile
import GateScript.Proofs.Lower.Outcome
import Mathlib.Data.List.Forall2

/-!
Actions with a count.

The targets of an action are looked up once, before its first round. What a target stands for does
not depend on the circuit, save for all qubits at once, so looking it up again before every round
comes to the same. A count of zero is taken as if there were none.
-/
namespace GateScript.Lower

open Program Outcome

section Rounds

variable {scope : Scope} {instruction : Instruction} {cs : Circuits}

/-- All targets but one are lists that do not depend on the circuit. -/
theorem targetItems_eq {target : Target} (h : target ≠ .all) (c c' : Circuit) :
    targetItems c target = targetItems c' target := by
  cases target with
  | all => exact absurd rfl h
  | name x => rfl
  | index n => rfl
  | list items => rfl

/-- An action on any target is one on the list of what is there before its first round. -/
theorem runAction_targetItems (scope : Scope) (target : Target) (count : Option Int)
    (instruction : Instruction) (cs : Circuits) :
    runAction scope target count instruction cs =
      runAction scope (.list (targetItems cs.main target)) count instruction cs := rfl

/-- An action on a list fails before its first round, or it is made of rounds. Which of the two, and
what a round does, depends neither on the count nor on the circuits. -/
theorem runAction_list_cases (scope : Scope) (items : List TargetItem) (instruction : Instruction) :
    (∃ e, ∀ count cs, runAction scope (.list items) count instruction cs = .failed e cs) ∨
      ∃ round, ∀ count cs, runAction scope (.list items) count instruction cs =
        runTimes round (rounds count) cs := by
  simp only [runAction, resolveTarget, targetItems]
  cases resolveItems scope items with
  | error e => exact .inl ⟨e, fun _ _ => rfl⟩
  | ok entities =>
    cases resolveInstruction scope instruction with
    | error e => exact .inl ⟨e, fun _ _ => rfl⟩
    | ok parts =>
      exact .inr ⟨runPipeline scope (.ofEntities entities) none parts, fun _ _ => rfl⟩

/-- The rounds of an action on a list can be run as actions of their own. -/
theorem runAction_list (items : List TargetItem) {count : Option Int} (hcount : rounds count ≠ 0) :
    runAction scope (.list items) count instruction cs =
      runTimes (runAction scope (.list items) none instruction) (rounds count) cs := by
  rcases runAction_list_cases scope items instruction with ⟨e, hfails⟩ | ⟨round, hrounds⟩
  · obtain ⟨n, hn⟩ := Nat.exists_eq_succ_of_ne_zero hcount
    rw [hn, runTimes, hfails, hfails, andThen_failed]
  · have honce : runAction scope (.list items) none instruction = round := by
      funext cs'
      rw [hrounds]
      exact andThen_done_right (round cs')
    rw [hrounds, honce]

theorem rounds_natCast (n : Nat) : rounds (some (n : Int)) = max n 1 := by
  by_cases hn : n = 0
  · simp [rounds, hn]
  · have hpos : 1 ≤ n := Nat.one_le_iff_ne_zero.mpr hn
    simp [rounds, hn, Nat.max_eq_left hpos]

theorem runAction_counted {target : Target} (htarget : target ≠ .all) (n : Nat) :
    runAction scope target (some n) instruction cs =
      runTimes (runAction scope target none instruction) (max n 1) cs := by
  have hlist : runAction scope target none instruction =
      runAction scope (.list (targetItems cs.main target)) none instruction := by
    funext cs'
    rw [runAction_targetItems, targetItems_eq htarget cs'.main cs.main]
  have hrounds : rounds (some (n : Int)) ≠ 0 := by
    rw [rounds_natCast]
    omega
  rw [runAction_targetItems, runAction_list _ hrounds, rounds_natCast, hlist]

end Rounds

section Programs

variable {target : Target}

theorem runNodes_replicate_action (target : Target) (count : Option Int)
    (instruction : Instruction) (n : Nat) (p : Progress) :
    runNodes (List.replicate n (.action target count instruction)) p =
      (runTimes (runAction p.scope target count instruction) n p.circuits).map
        fun circuits => { p with circuits } := by
  have hround : ∀ cs, (runAction p.scope target count instruction cs).map
      (fun circuits => { p with circuits }) =
        runNode (.action target count instruction) { p with circuits := cs } := fun _ => rfl
  rw [runNodes, runEach_replicate, map_runTimes hround]

/-- An action with a count is the action without it, as often as the count says but at least once.
So the count is obeyed exactly if it is not zero or one round leaves everything as it is. -/
theorem action_repeated (htarget : target ≠ .all) (n : Nat) (instruction : Instruction)
    (p : Progress) :
    runNode (.action target (some n) instruction) p =
        runNodes (List.replicate (max n 1) (.action target none instruction)) p ∧
      (runNode (.action target (some n) instruction) p =
          runNodes (List.replicate n (.action target none instruction)) p ↔
        n ≠ 0 ∨ runNode (.action target none instruction) p = .done p) := by
  have hcounted : runNode (.action target (some n) instruction) p =
      runNodes (List.replicate (max n 1) (.action target none instruction)) p := by
    rw [runNodes_replicate_action, ← runAction_counted htarget]
    rfl
  refine ⟨hcounted, ?_⟩
  rw [hcounted]
  by_cases hn : n = 0
  · subst hn
    have honce : runNodes (List.replicate (max 0 1) (.action target none instruction)) p =
        runNode (.action target none instruction) p := andThen_done_right _
    rw [honce]
    simp [runNodes]
  · have hmax : max n 1 = n := Nat.max_eq_left (Nat.one_le_iff_ne_zero.mpr hn)
    simp [hmax, hn]

/-- Measures the target and then links it to a second qubit, which the first round has yet to add.
So the first round measures all qubits at once, and the second one does not. -/
def probing : Instruction := .parts [.gate ⟨"M", []⟩, .gate ⟨"CX", [.name "y"]⟩]

/-- Two rounds are two actions. No round would be no change, but there is one. -/
theorem action_repeated_probing :
    runNode (.action (.index 0) (some 2) probing) ⟨[("y", .qubit (.default 1))], ⟨.blank 1, []⟩⟩ =
      runNodes [.action (.index 0) none probing, .action (.index 0) none probing]
        ⟨[("y", .qubit (.default 1))], ⟨.blank 1, []⟩⟩ ∧
    runNode (.action (.index 0) (some 0) probing) ⟨[("y", .qubit (.default 1))], ⟨.blank 1, []⟩⟩ ≠
      .done ⟨[("y", .qubit (.default 1))], ⟨.blank 1, []⟩⟩ := by
  have htarget : Target.index 0 ≠ .all := by simp
  constructor
  · exact (action_repeated htarget 2 probing _).1
  · intro hnone
    rcases (action_repeated htarget 0 probing _).2.mp hnone with hzero | hround
    · exact hzero rfl
    · exact absurd hround (by decide)

/-- An action with the count zero is run once. -/
theorem circuitsOfText_zero_rounds :
    circuitsOfText "0 -> 0 H" =
      .ok (.done ⟨⟨0, [⟨.addQubit (.default 0), none⟩, ⟨.addBit (.default 0), none⟩,
        ⟨.gate .h [] [.default 0], none⟩], [.default 0], [.default 0]⟩, []⟩) ∧
    circuitsOfText "0 -> 0 H" = circuitsOfText "0 -> H" := by
  decide +kernel

end Programs

end GateScript.Lower
