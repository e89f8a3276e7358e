import GateScript.Proofs.Editor.Diagnostics

/-!
Which character a diagnostic quotes.

The position of an error counts line feeds, and the character that its diagnostic quotes is looked
up in the lines of the text, which have other ends as well. As long as all line ends before the
error have a line feed, the character of the error is quoted, or nothing if it ends a line itself.
After a line end without one the lines are counted differently, and what is quoted stands before
the error.
-/
namespace GateScript.Text

section Lines

variable {c : Char} {cs line rest : List Char}

/-- A carriage return that goes together with the line feed after it. -/
def Joins (c : Char) (cs : List Char) : Prop := c = '\r' ∧ cs.head? = some '\n'

instance (c : Char) (cs : List Char) : Decidable (Joins c cs) :=
  inferInstanceAs (Decidable (c = '\r' ∧ cs.head? = some '\n'))

/-- How many line ends of a text are without a line feed. -/
def strayEnds : List Char → Nat
  | [] => 0
  | c :: cs => (if isLineEnd c ∧ c ≠ '\n' ∧ ¬Joins c cs then 1 else 0) + strayEnds cs

/-- The lines of a text, one character at a time. -/
theorem lines_cons (c : Char) (cs : List Char) :
    lines (c :: cs) =
      if Joins c cs then lines cs
      else if isLineEnd c then [] :: lines cs else consLine c (lines cs) := by
  by_cases hjoins : Joins c cs
  · rw [if_pos hjoins]
    obtain ⟨rfl, hhead⟩ := hjoins
    obtain ⟨cs, rfl⟩ := List.head?_eq_some_iff.mp hhead
    rfl
  · rw [if_neg hjoins]
    conv_lhs => unfold lines
    split
    · rename_i heq
      cases heq
    · rename_i heq
      cases heq
      exact absurd ⟨rfl, rfl⟩ hjoins
    · rename_i heq
      cases heq
      rfl

theorem lines_ne_nil (h : cs ≠ []) : lines cs ≠ [] := by
  induction cs with
  | nil => exact absurd rfl h
  | cons c cs ih =>
    rw [lines_cons]
    by_cases hjoins : Joins c cs
    · rw [if_pos hjoins]
      apply ih
      rintro rfl
      simp [Joins] at hjoins
    · rw [if_neg hjoins]
      split
      · exact List.cons_ne_nil _ _
      · cases lines cs <;> exact List.cons_ne_nil _ _

theorem consLine_append {ls : List (List Char)} (h : ls ≠ []) (c : Char) (ls' : List (List Char)) :
    consLine c (ls ++ ls') = consLine c ls ++ ls' := by
  obtain ⟨l, ls, rfl⟩ := List.exists_cons_of_ne_nil h
  rfl

theorem length_consLine {ls : List (List Char)} (h : ls ≠ []) (c : Char) :
    (consLine c ls).length = ls.length := by
  obtain ⟨l, ls, rfl⟩ := List.exists_cons_of_ne_nil h
  rfl

theorem joins_append (c : Char) (cs rest : List Char) :
    Joins c (cs ++ '\n' :: rest) ↔ Joins c (cs ++ ['\n']) := by
  simp [Joins, List.head?_append]

/-- After a line feed the lines begin anew. -/
theorem lines_lineFeed (cs rest : List Char) :
    lines (cs ++ '\n' :: rest) = lines (cs ++ ['\n']) ++ lines rest := by
  induction cs with
  | nil => rfl
  | cons c cs ih =>
    have hne : lines (cs ++ ['\n']) ≠ [] := lines_ne_nil (by simp)
    simp only [List.cons_append, lines_cons, joins_append, ih, consLine_append hne]
    split
    · rfl
    · split <;> rfl

theorem strayEnds_lineFeed (cs rest : List Char) :
    strayEnds (cs ++ '\n' :: rest) = strayEnds (cs ++ ['\n']) + strayEnds rest := by
  induction cs with
  | nil => simp [strayEnds]
  | cons c cs ih => simp only [List.cons_append, strayEnds, joins_append, ih, Nat.add_assoc]

/-- Up to a line feed there are as many lines as line feeds, and one more for every other line
end. -/
theorem length_lines_lineFeed (cs : List Char) :
    (lines (cs ++ ['\n'])).length = (cs ++ ['\n']).count '\n' + strayEnds (cs ++ ['\n']) := by
  induction cs with
  | nil => rfl
  | cons c cs ih =>
    rw [List.cons_append, lines_cons, strayEnds]
    by_cases hjoins : Joins c (cs ++ ['\n'])
    · have hc : c ≠ '\n' := by
        rw [hjoins.1]
        decide
      rw [if_pos hjoins, ih, List.count_cons_of_ne hc]
      simp [hjoins]
    · rw [if_neg hjoins]
      by_cases hend : isLineEnd c = true
      · rw [if_pos hend, List.length_cons, ih]
        by_cases hc : c = '\n'
        · rw [hc, List.count_cons_self]
          simp
          omega
        · rw [List.count_cons_of_ne hc]
          simp [hend, hc, hjoins]
          omega
      · have hc : c ≠ '\n' := by
          rintro rfl
          exact hend (by decide)
        have hne : lines (cs ++ ['\n']) ≠ [] := lines_ne_nil (by simp)
        rw [if_neg hend, length_consLine hne, ih, List.count_cons_of_ne hc]
        simp [hend]

/-- The first line goes up to the first line end. -/
theorem head?_lines (h : cs ≠ []) :
    (lines cs).head? = some (cs.takeWhile fun c => !isLineEnd c) := by
  induction cs with
  | nil => exact absurd rfl h
  | cons c cs ih =>
    rw [lines_cons]
    by_cases hjoins : Joins c cs
    · obtain ⟨rfl, hhead⟩ := hjoins
      obtain ⟨cs', rfl⟩ := List.head?_eq_some_iff.mp hhead
      rw [if_pos ⟨rfl, hhead⟩, ih (List.cons_ne_nil _ _)]
      rfl
    · rw [if_neg hjoins]
      by_cases hend : isLineEnd c = true
      · simp [hend]
      · rw [if_neg hend, List.takeWhile_cons_of_pos (by simpa using hend)]
        by_cases hcs : cs = []
        · subst hcs
          rfl
        · obtain ⟨l, ls, hlines⟩ := List.exists_cons_of_ne_nil (lines_ne_nil hcs)
          have hfirst := ih hcs
          rw [hlines, List.head?_cons, Option.some.injEq] at hfirst
          rw [hlines, ← hfirst]
          rfl

theorem strayEnds_eq_zero_iff (h : '\n' ∉ line) :
    strayEnds line = 0 ↔ ∀ c ∈ line, isLineEnd c = false := by
  induction line with
  | nil => simp [strayEnds]
  | cons c line ih =>
    obtain ⟨hc, hline⟩ : c ≠ '\n' ∧ '\n' ∉ line := by simpa [eq_comm] using h
    have hjoins : ¬Joins c line := fun hjoins => hline (List.mem_of_head? hjoins.2)
    rw [strayEnds, List.forall_mem_cons, ← ih hline]
    cases isLineEnd c <;> simp [hc, hjoins]

/-- A text that ends with a line feed, if it is not empty. -/
def WholeLines (cs : List Char) : Prop := cs = [] ∨ ∃ body, cs = body ++ ['\n']

variable {above : List Char}

theorem WholeLines.lines_append (h : WholeLines above) (rest : List Char) :
    lines (above ++ rest) = lines above ++ lines rest := by
  obtain rfl | ⟨body, rfl⟩ := h
  · rfl
  · rw [List.append_assoc, List.singleton_append, lines_lineFeed]

theorem WholeLines.strayEnds_append (h : WholeLines above) (rest : List Char) :
    strayEnds (above ++ rest) = strayEnds above + strayEnds rest := by
  obtain rfl | ⟨body, rfl⟩ := h
  · simp [strayEnds]
  · rw [List.append_assoc, List.singleton_append, strayEnds_lineFeed]

theorem WholeLines.length_lines (h : WholeLines above) :
    (lines above).length = above.count '\n' + strayEnds above := by
  obtain rfl | ⟨body, rfl⟩ := h
  · rfl
  · exact length_lines_lineFeed body

/-- A text is made of whole lines and of the beginning of another. -/
theorem exists_wholeLines (before : List Char) :
    ∃ above line, before = above ++ line ∧ WholeLines above ∧ '\n' ∉ line := by
  induction before using List.reverseRecOn with
  | nil => exact ⟨[], [], rfl, .inl rfl, List.not_mem_nil⟩
  | append_singleton before c ih =>
    by_cases hc : c = '\n'
    · subst hc
      exact ⟨before ++ ['\n'], [], by simp, .inr ⟨before, rfl⟩, List.not_mem_nil⟩
    · obtain ⟨above, line, rfl, habove, hline⟩ := ih
      refine ⟨above, line ++ [c], List.append_assoc above line [c], habove, ?_⟩
      simpa [eq_comm, hc] using hline

end Lines

end GateScript.Text

namespace GateScript.Editor

open Source Text

section Quoting

variable {text : String} {above line before rest : List Char} {c : Char}

theorem position_wholeLines (habove : WholeLines above) (hline : '\n' ∉ line) :
    Position.of (above ++ line) = ⟨above.count '\n' + 1, line.length + 1⟩ := by
  have hcolumn : (Position.of above).column = 1 := by
    obtain rfl | ⟨body, rfl⟩ := habove
    · rfl
    · rw [Position.of_concat]
      rfl
  rw [← Position.after_of, Position.after_line _ hline, hcolumn, Nat.add_comm 1]
  rfl

/-- The character that is looked up for an error at `c`, after the text `before`. It is the one that
is looked up in `before` alone, if there is a line end without a line feed. -/
theorem characterAt?_eq (htext : text.toList = before ++ c :: rest) :
    characterAt? text ((Position.of before).line - 1) ((Position.of before).column - 1) =
      if strayEnds before = 0 then (if isLineEnd c then none else some c)
      else characterAt? (String.ofList before) ((Position.of before).line - 1)
        ((Position.of before).column - 1) := by
  obtain ⟨above, line, rfl, habove, hline⟩ := exists_wholeLines before
  have hlength := habove.length_lines
  have hstray := habove.strayEnds_append line
  unfold characterAt?
  rw [position_wholeLines habove hline, htext, List.append_assoc, String.toList_ofList,
    habove.lines_append, habove.lines_append]
  simp only [Nat.add_sub_cancel]
  by_cases habove0 : strayEnds above = 0
  · -- the line of the error is the first one after those above
    have hindex : above.count '\n' = (lines above).length := by omega
    have hhead : ∀ ls : List (List Char), (lines above ++ ls)[above.count '\n']? = ls.head? := by
      intro ls
      rw [hindex, List.getElem?_append_right (Nat.le_refl _), Nat.sub_self, List.head?_eq_getElem?]
    rw [hhead, hhead, head?_lines (by simp), Option.bind_some, List.takeWhile_append]
    by_cases hclean : ∀ x ∈ line, isLineEnd x = false
    · have htake : (line.takeWhile fun x => !isLineEnd x) = line := by
        rw [List.takeWhile_eq_self_iff]
        simpa using hclean
      have hstray0 := (strayEnds_eq_zero_iff hline).mpr hclean
      rw [htake, if_pos rfl, if_pos (by omega), List.getElem?_append_right (Nat.le_refl _),
        Nat.sub_self]
      cases hend : isLineEnd c <;> simp [hend]
    · have htake : (line.takeWhile fun x => !isLineEnd x).length ≠ line.length := by
        intro hsame
        have hself := (List.takeWhile_prefix fun x => !isLineEnd x).eq_of_length hsame
        rw [List.takeWhile_eq_self_iff] at hself
        exact hclean (by simpa using hself)
      have hstray0 : strayEnds line ≠ 0 := fun h => hclean ((strayEnds_eq_zero_iff hline).mp h)
      have hne : line ≠ [] := by
        rintro rfl
        exact htake rfl
      rw [if_neg htake, if_neg (by omega), head?_lines hne]
      rfl
  · -- the line with the number of the error is one of those above
    have hindex : above.count '\n' < (lines above).length := by omega
    rw [List.getElem?_append_left hindex, List.getElem?_append_left hindex, if_neg (by omega)]

/-- The message of a diagnostic about a character, with what it quotes. -/
def characterMessage (shown : Option Char) (expected : List Terminal) : String :=
  "Unexpected character '" ++ shown.elim "" String.singleton ++ "'" ++ expectation expected

theorem message_diagnosticOf (text : String) (c : Char) (p : Position) (expected : List Terminal) :
    (diagnosticOf text (.character c p expected)).message =
      characterMessage (characterAt? text (p.line - 1) (p.column - 1)) expected := by
  -- the equation of `diagnosticOf` is not used: it compares the texts of the messages
  unfold diagnosticOf characterMessage
  dsimp only
  cases characterAt? text (p.line - 1) (p.column - 1) with
  | none => dsimp only [Option.elim_none]
  | some shown => dsimp only [Option.elim_some]

/-- A message shows what is quoted. -/
theorem characterMessage_inj {shown shown' : Option Char} {expected : List Terminal} :
    characterMessage shown expected = characterMessage shown' expected ↔ shown = shown' := by
  unfold characterMessage
  rw [String.append_left_inj, String.append_left_inj, String.append_right_inj]
  cases shown <;> cases shown' <;> simp

/-- An error at a character stands at the position after the text before it. If all line ends there
have a line feed, the diagnostic quotes the character, or nothing if that is a line end. Otherwise
it quotes what the lines of the text before the error have at its line and column, whatever the
character is. So it quotes the right one just in the first case, or if the two happen to agree. -/
theorem diagnose_quotes {p : Position} {expected : List Terminal}
    (h : parse text = .error (.character c p expected)) :
    (∃ before rest, text.toList = before ++ c :: rest ∧ p = .of before) ∧
    ∀ before rest, text.toList = before ++ c :: rest → p = .of before →
      ∃ d, diagnose text = [d] ∧
        (strayEnds before = 0 →
          d.message = characterMessage (if isLineEnd c then none else some c) expected) ∧
        (strayEnds before ≠ 0 →
          d.message = characterMessage
            (characterAt? (String.ofList before) (p.line - 1) (p.column - 1)) expected) ∧
        (d.message = characterMessage (some c) expected ↔
          strayEnds before = 0 ∧ isLineEnd c = false ∨
          strayEnds before ≠ 0 ∧
            characterAt? (String.ofList before) (p.line - 1) (p.column - 1) = some c) := by
  constructor
  · obtain ⟨before, rest, htext, -, ⟨hp, hhead, -⟩, -⟩ := error_stands h
    obtain ⟨rest, rfl⟩ := List.head?_eq_some_iff.mp hhead
    exact ⟨before, rest, htext, hp⟩
  · intro before rest htext hp
    have hmessage := message_diagnosticOf text c p expected
    rw [hp, characterAt?_eq htext, ← hp] at hmessage
    refine ⟨diagnosticOf text (.character c p expected), by rw [diagnose, h], ?_, ?_, ?_⟩
    · intro hstray
      rw [hmessage, if_pos hstray]
    · intro hstray
      rw [hmessage, if_neg hstray]
    · rw [hmessage, characterMessage_inj]
      by_cases hstray : strayEnds before = 0
      · cases hend : isLineEnd c <;> simp [hstray]
      · simp [hstray]

/-- A comment with a line separator in it, and an error on the next line. -/
def separatedText : String := "# note\u2028see above\n0 -> $"

theorem diagnose_quotes_separated :
    parse separatedText = .error
        (.character '$' ⟨2, 6⟩ [.openParen, .name, .number, .upperName]) ∧
      ∃ d, diagnose separatedText = [d] ∧
        d.message = characterMessage (some 'b') [.openParen, .name, .number, .upperName] := by
  have hparse : parse separatedText = .error
      (.character '$' ⟨2, 6⟩ [.openParen, .name, .number, .upperName]) := by decide +kernel
  have htext : separatedText.toList = "# note\u2028see above\n0 -> ".toList ++ '$' :: [] := by
    decide +kernel
  have hplace : (⟨2, 6⟩ : Position) = .of "# note\u2028see above\n0 -> ".toList := by
    decide +kernel
  have hstray : strayEnds "# note\u2028see above\n0 -> ".toList ≠ 0 := by decide +kernel
  have hshown : characterAt? (String.ofList "# note\u2028see above\n0 -> ".toList) 1 5 =
      some 'b' := by decide +kernel
  obtain ⟨d, hd, -, hquotes, -⟩ := (diagnose_quotes hparse).2 _ _ htext hplace
  refine ⟨hparse, d, hd, ?_⟩
  rw [hquotes hstray]
  exact congrArg (characterMessage · _) hshown

/-- A character from the comment is quoted, not the one that is wrong. -/
theorem diagnose_separated :
    (diagnose separatedText).map Diagnostic.message =
      ["Unexpected character 'b'. Expected one of: LPAR, NAME, NUMBER, UPPER_NAME"] := by
  decide +kernel

end Quoting

end GateScript.Editor
