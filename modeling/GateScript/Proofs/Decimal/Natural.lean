import GateScript.Proofs.Decimal.Scripts

/-! The decimal numerals of natural numbers, and reading them back. -/
namespace GateScript

namespace Text

theorem toNat_of_isDigit {c : Char} (h : c.isDigit) : 48 ≤ c.toNat ∧ c.toNat ≤ 57 := by
  simp only [Char.isDigit, ge_iff_le, Bool.and_eq_true, decide_eq_true_eq,
    UInt32.le_iff_toNat_le] at h
  exact h

theorem digitValue?_of_isDigit {c : Char} (h : c.isDigit) :
    digitValue? c = some (c.toNat - 48) := by
  obtain ⟨hlo, hhi⟩ := toNat_of_isDigit h
  have hzeros : digitZeros = 48 :: digitZeros.tail := rfl
  rw [digitValue?, hzeros, List.find?_cons_of_pos]
  · rfl
  · simp only [Bool.and_eq_true, decide_eq_true_eq]
    omega

theorem isDigit_of_isDigit {c : Char} (h : c.isDigit) : isDigit c = true := by
  rw [isDigit, digitValue?_of_isDigit h]
  rfl

end Text

namespace Decimal

theorem ofDigits_digitsIn {cs : List Char} (h : ∀ c ∈ cs, c.isDigit) :
    ofDigits (digitsIn cs) = Nat.ofDigitChars 10 cs 0 := by
  have hdigits : digitsIn cs = cs.map fun c => c.toNat - 48 := by
    rw [digitsIn, ← List.filterMap_eq_map]
    exact List.filterMap_congr fun c hc => Text.digitValue?_of_isDigit (h c hc)
  rw [hdigits, Nat.ofDigitChars_eq_foldl, ofDigits, List.foldl_map]
  rfl

theorem isDigit_toDigits (n : Nat) : ∀ c ∈ Nat.toDigits 10 n, c.isDigit :=
  fun _ hc => Nat.isDigit_of_mem_toDigits (by omega) (by omega) hc

/-- The numeral of a number has no more digits than allowed. -/
def Fits (limit : Option Nat) (n : Nat) : Prop :=
  ∀ count ∈ limit, (Nat.toDigits 10 n).length ≤ count

theorem fits_digitLimit {n : Nat} : Fits digitLimit n ↔ n < 10 ^ 4300 := by
  rw [← Nat.length_toDigits_le_iff (by omega) (by omega)]
  simp [Fits, digitLimit]

theorem readInteger_toDigits (limit : Option Nat) (n : Nat) :
    readInteger limit (Nat.toDigits 10 n) =
      (limit.filter (· < (Nat.toDigits 10 n).length)).elim (.ok (n : Int))
        (.error <| .tooManyDigits (Nat.toDigits 10 n).length ·) := by
  have hdigit := isDigit_toDigits n
  rw [readInteger_digits limit Nat.toDigits_ne_nil fun c hc => Text.isDigit_of_isDigit (hdigit c hc),
    ofDigits_digitsIn hdigit, Nat.ofDigitChars_ten_toDigits]

end Decimal

namespace Number

/-- A numeral is read back if it has no more digits than allowed. -/
theorem read_toString {limit : Option Nat} {n : Nat} (h : Decimal.Fits limit n) :
    read limit (toString n) = .ok (.int n) := by
  have hpoint : '.' ∉ Nat.toDigits 10 n := fun hc => by simpa using Decimal.isDigit_toDigits n _ hc
  have hlimit : limit.filter (· < (Nat.toDigits 10 n).length) = none := by
    simpa [Option.filter_eq_none_iff, Decimal.Fits] using h
  simp only [read, Nat.toString_eq_ofList_toDigits, String.toList_ofList, List.contains_eq_mem,
    hpoint, decide_false, Decimal.readInteger_toDigits, hlimit]
  rfl

/-- A numeral that has more digits is not read. -/
theorem read_toString_ne_ok {limit : Option Nat} {n : Nat} (h : ¬Decimal.Fits limit n)
    (x : Number) : read limit (toString n) ≠ .ok x := by
  have hpoint : '.' ∉ Nat.toDigits 10 n := fun hc => by simpa using Decimal.isDigit_toDigits n _ hc
  obtain ⟨count, hcount, hless⟩ : ∃ count, limit = some count ∧
      count < (Nat.toDigits 10 n).length := by simpa [Decimal.Fits] using h
  have hlimit : limit.filter (· < (Nat.toDigits 10 n).length) = some count := by
    simp [hcount, hless]
  simp only [read, Nat.toString_eq_ofList_toDigits, String.toList_ofList, List.contains_eq_mem,
    hpoint, decide_false, Decimal.readInteger_toDigits, hlimit]
  simp

end Number

end GateScript
