import GateScript.Number
import Mathlib.Data.List.DropRight
import Mathlib.Data.Nat.Digits.Defs

/-!
Numerals with digits of any script, and the numbers that they spell.

A digit is no blank, no sign, no point and no underscore. So a run of digits is read to its end, and
the digits on both sides of a point are the digits of the number, the point says where they end.
-/
namespace GateScript

namespace Text

theorem exists_zero_of_isDigit {c : Char} (h : isDigit c = true) :
    ∃ z ∈ digitZeros, z ≤ c.toNat ∧ c.toNat < z + 10 := by
  rw [isDigit, digitValue?, Option.isSome_map, List.find?_isSome] at h
  obtain ⟨z, hz, hbounds⟩ := h
  simp only [Bool.and_eq_true, decide_eq_true_eq] at hbounds
  exact ⟨z, hz, hbounds⟩

theorem isBlank_eq_false {c : Char} (h : isDigit c = true) : isBlank c = false := by
  obtain ⟨z, hz, hlo, hhi⟩ := exists_zero_of_isDigit h
  have hranges : ∀ z ∈ digitZeros, ∀ r ∈ blankRanges, r.last < z ∨ z + 9 < r.first := by decide
  rw [isBlank, covers, List.any_eq_false]
  intro r hr
  have hrange := hranges z hz r hr
  simp only [Range.contains, Bool.and_eq_true, decide_eq_true_eq]
  omega

theorem isDigit_eq_some {c : Char} (h : isDigit c = true) : ∃ d, digitValue? c = some d :=
  Option.isSome_iff_exists.mp h

theorem trimBlanks_eq_self {cs : List Char} (hfirst : ∀ c ∈ cs.head?, isBlank c = false)
    (hlast : ∀ c ∈ cs.getLast?, isBlank c = false) : trimBlanks cs = cs := by
  have hdrop : ∀ ds : List Char, (∀ c ∈ ds.head?, isBlank c = false) →
      ds.dropWhile isBlank = ds := by
    intro ds hds
    cases ds with
    | nil => rfl
    | cons d ds => exact List.dropWhile_cons_of_neg (by simpa using hds d rfl)
  rw [trimBlanks, hdrop cs hfirst, hdrop cs.reverse (by simpa using hlast), List.reverse_reverse]

end Text

namespace Decimal

/-- The digits of a text, in their order. -/
def digitsIn (cs : List Char) : List Nat := cs.filterMap Text.digitValue?

theorem digitsIn_cons {c : Char} {d : Nat} (h : Text.digitValue? c = some d) (cs : List Char) :
    digitsIn (c :: cs) = d :: digitsIn cs := List.filterMap_cons_some h

theorem digitRun_digit {c : Char} {d : Nat} (h : Text.digitValue? c = some d) (inside : Bool)
    (cs : List Char) :
    digitRun inside (c :: cs) = (d :: (digitRun true cs).1, (digitRun true cs).2) := by
  have hunderscore : Text.digitValue? '_' = none := by decide
  conv_lhs => unfold digitRun
  split
  · simp_all
  · rename_i heq
    cases heq
    simp [hunderscore] at h
  · rename_i heq
    cases heq
    rw [h]

theorem digitRun_stop {c : Char} (h : Text.digitValue? c = none) (hne : c ≠ '_') (inside : Bool)
    (cs : List Char) : digitRun inside (c :: cs) = ([], c :: cs) := by
  unfold digitRun
  split
  · simp_all
  · rename_i heq
    cases heq
    exact absurd rfl hne
  · rename_i heq
    cases heq
    rw [h]

/-- Digits are read up to what is neither a digit nor an underscore. -/
theorem digitRun_append {cs rest : List Char} (h : ∀ c ∈ cs, Text.isDigit c = true)
    (hrest : ∀ c ∈ rest.head?, Text.digitValue? c = none ∧ c ≠ '_') (inside : Bool) :
    digitRun inside (cs ++ rest) = (digitsIn cs, rest) := by
  induction cs generalizing inside with
  | nil =>
    rw [List.nil_append]
    cases rest with
    | nil => rfl
    | cons c rest =>
      obtain ⟨hc, hne⟩ := hrest c rfl
      exact digitRun_stop hc hne inside rest
  | cons c cs ih =>
    obtain ⟨hc, hcs⟩ := List.forall_mem_cons.mp h
    obtain ⟨d, hd⟩ := Text.isDigit_eq_some hc
    rw [List.cons_append, digitRun_digit hd, ih hcs true, digitsIn_cons hd]

theorem digitRun_all {cs : List Char} (h : ∀ c ∈ cs, Text.isDigit c = true) (inside : Bool) :
    digitRun inside cs = (digitsIn cs, []) := by
  have hrun : digitRun inside (cs ++ []) = (digitsIn cs, []) := digitRun_append h (by simp) inside
  rwa [List.append_nil] at hrun

theorem length_digitsIn {cs : List Char} (h : ∀ c ∈ cs, Text.isDigit c = true) :
    (digitsIn cs).length = cs.length := by
  induction cs with
  | nil => rfl
  | cons c cs ih =>
    obtain ⟨hc, hcs⟩ := List.forall_mem_cons.mp h
    obtain ⟨d, hd⟩ := Text.isDigit_eq_some hc
    rw [digitsIn_cons hd, List.length_cons, List.length_cons, ih hcs]

theorem digitsIn_isEmpty {cs : List Char} (hne : cs ≠ []) (h : ∀ c ∈ cs, Text.isDigit c = true) :
    (digitsIn cs).isEmpty = false := by
  have hlength := length_digitsIn h
  have hpos := List.length_pos_of_ne_nil hne
  rw [List.isEmpty_eq_false_iff, ← List.length_pos_iff]
  omega

/-- A text that begins and ends with a digit has neither blanks around it nor a sign. -/
theorem signed_trimBlanks {cs : List Char} (hne : cs ≠ [])
    (hfirst : ∀ c ∈ cs.head?, Text.isDigit c = true)
    (hlast : ∀ c ∈ cs.getLast?, Text.isDigit c = true) :
    signed (Text.trimBlanks cs) = (false, cs) := by
  have htrim : Text.trimBlanks cs = cs :=
    Text.trimBlanks_eq_self (fun c hc => Text.isBlank_eq_false (hfirst c hc))
      fun c hc => Text.isBlank_eq_false (hlast c hc)
  obtain ⟨c, cs, rfl⟩ := List.exists_cons_of_ne_nil hne
  have hc := hfirst c rfl
  rw [htrim]
  unfold signed
  split
  · rename_i heq
    cases heq
    exact absurd hc (by decide)
  · rename_i heq
    cases heq
    exact absurd hc (by decide)
  · rfl

/-- Digits are read as the integer that they spell, unless there are too many of them. -/
theorem readInteger_digits (limit : Option Nat) {cs : List Char} (hne : cs ≠ [])
    (h : ∀ c ∈ cs, Text.isDigit c = true) :
    readInteger limit cs =
      (limit.filter (· < cs.length)).elim (.ok (ofDigits (digitsIn cs) : Nat))
        (.error <| .tooManyDigits cs.length ·) := by
  -- digits have no blanks and no sign, so the whole text is one run of digits
  have hsigned : signed (Text.trimBlanks cs) = (false, cs) :=
    signed_trimBlanks hne (fun c hc => h c (List.mem_of_mem_head? hc))
      fun c hc => h c (List.mem_of_mem_getLast? hc)
  simp only [readInteger, hsigned, digitRun_all h, digitsIn_isEmpty hne h, length_digitsIn h]
  cases limit.filter (· < cs.length) with
  | none => rfl
  | some most => rfl

/-- How many characters stand after the last point. -/
def places (cs : List Char) : Nat := (cs.reverse.takeWhile (· != '.')).length

end Decimal

namespace Number

open Decimal

/-- The number that the digits of a numeral spell. With a point it is a decimal. -/
def spelled (cs : List Char) : Number :=
  if '.' ∈ cs then .real (Binary64.ofDecimal false (ofDigits (digitsIn cs)) (-(places cs : Int)))
  else .int (ofDigits (digitsIn cs) : Nat)

end Number

end GateScript
