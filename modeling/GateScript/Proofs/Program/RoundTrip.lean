import GateScript.Compile
import GateScript.Proofs.Program.Numerals
import GateScript.Proofs.Source.Reading

/-!
Programs that are written and read back.

The text of a program is read into statements that spell its nodes, and these are built into the
nodes. Reading sets no bound to a numeral; building does, and that is all that can go wrong.
-/
namespace GateScript.Program

section Texts

variable {limit : Option Nat} {nodes : List Node}

theorem nodesOf_eq_ok_iff {statements : List Source.Statement}
    (h : List.Forall₂ Source.Statement.Spells statements nodes) :
    nodesOf limit statements = .ok nodes ↔ NumbersFit limit (nodes.flatMap Node.numbers) :=
  ⟨numbersFit_of_nodesOf h, nodesOf_eq h⟩

theorem nodesOfText_render_iff (hne : nodes ≠ []) (hnodes : ∀ node ∈ nodes, node.Writable) :
    nodesOfText (render nodes) = .ok nodes ↔
      NumbersFit Decimal.digitLimit (nodes.flatMap Node.numbers) := by
  obtain ⟨statements, hparse, hspells⟩ := Source.parse_render hne hnodes
  rw [nodesOfText_eq hparse, nodesOf_eq_ok_iff hspells]

theorem numbersFit_none (numbers : List Int) : NumbersFit none numbers :=
  fun _ _ count hcount => by simp at hcount

theorem numbersFit_digitLimit {numbers : List Int} :
    NumbersFit Decimal.digitLimit numbers ↔ ∀ n ∈ numbers, n < 10 ^ 4300 := by
  constructor
  · intro h n hn
    rcases Int.eq_nat_or_neg n with ⟨k, rfl | rfl⟩
    · have hk := Decimal.fits_digitLimit.mp (h k hn)
      exact_mod_cast hk
    · have hpos : (0 : Int) < 10 ^ 4300 := by positivity
      omega
  · intro h n hn
    have hn := h n hn
    exact Decimal.fits_digitLimit.mpr (by exact_mod_cast hn)

end Texts

/-- A program is read back from its text. That holds without exception if numerals may be of any
length; as it is they may have 4300 digits, and the program is read back exactly if all of its
numbers have no more. -/
theorem nodesOfText_render {nodes : List Node} (hne : nodes ≠ [])
    (hnodes : ∀ node ∈ nodes, node.Writable) :
    (∃ statements, Source.parse (render nodes) = .ok statements ∧
      nodesOf none statements = .ok nodes) ∧
    (nodesOfText (render nodes) = .ok nodes ↔
      ∀ node ∈ nodes, ∀ n ∈ node.numbers, n < 10 ^ 4300) := by
  obtain ⟨statements, hparse, hspells⟩ := Source.parse_render hne hnodes
  refine ⟨⟨statements, hparse, nodesOf_eq hspells (numbersFit_none _)⟩, ?_⟩
  rw [nodesOfText_render_iff hne hnodes, numbersFit_digitLimit, List.forall_mem_flatMap]

/-- A program that repeats and reverses a pipeline, under a condition and without. -/
def echoProgram : List Node :=
  [.qubit "x" ⟨"q", 0⟩, .bit "c" ⟨"flags", 1⟩, .list "both" ["x", "b"],
    .instruction "echo" [.gate ⟨"H", []⟩, .named ⟨"b", true⟩],
    .action .all (some 12) (.parts [.named ⟨"q", false⟩]),
    .conditional (.list [.name "x", .number (.int 2)]) "q"
      [.gate ⟨"RZ", [.number (.int 1), .name "t"]⟩, .named ⟨"echo", false⟩]
      (some [.named ⟨"echo", true⟩])]

theorem nodesOfText_render_echo :
    (∀ node ∈ echoProgram, node.Writable) ∧ nodesOfText (render echoProgram) = .ok echoProgram := by
  have hsmall : ∀ node ∈ echoProgram, ∀ n ∈ node.numbers, n < 10 ^ 4300 := by
    intro node hnode n hn
    have hn : n < 10 ^ 2 := by revert node n; decide
    exact hn.trans_le (pow_le_pow_right₀ (by decide) (by decide))
  have hwritable : ∀ node ∈ echoProgram, node.Writable := by decide
  exact ⟨hwritable, (nodesOfText_render (by decide) hwritable).2.mpr hsmall⟩

/-- A gate with one number as its argument. -/
def turn (n : Nat) : Node := .action (.name "x") none (.parts [.gate ⟨"RZ", [.number (.int n)]⟩])

theorem turn_writable (n : Nat) : (turn n).Writable := by
  refine ⟨by decide, by simp, List.cons_ne_nil _ _, ?_⟩
  rw [List.forall_mem_singleton]
  have hname : Source.isGateName "RZ" := by decide
  refine ⟨hname, ?_⟩
  rw [List.forall_mem_singleton]
  exact Int.natCast_nonneg n

/-- A numeral of 4301 digits is not read back. -/
theorem nodesOfText_render_turn :
    (turn (10 ^ 4300)).Writable ∧
      nodesOfText (render [turn (10 ^ 4300)]) ≠ .ok [turn (10 ^ 4300)] := by
  have hwritable : ∀ node ∈ [turn (10 ^ 4300)], node.Writable :=
    List.forall_mem_singleton.mpr (turn_writable _)
  refine ⟨turn_writable _, fun h => ?_⟩
  have hfit := (nodesOfText_render_iff (List.cons_ne_nil _ _) hwritable).mp h
  exact lt_irrefl _ (Decimal.fits_digitLimit.mp (hfit (10 ^ 4300) List.mem_cons_self))

end GateScript.Program
