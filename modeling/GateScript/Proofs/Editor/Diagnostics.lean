import GateScript.Editor.Diagnostic
import GateScript.Proofs.Source.FirstError

/-!
Where diagnostics stand.

A text has one diagnostic if it is no program, and none if it is one. The span of the diagnostic
begins where the error does and goes over the characters of its token. It ends at the column where
the token ends, and a line end does so on a later line: its span ends at the beginning of the line.
-/
namespace GateScript.Source

/-- The token that an error names. At the end of the text it is the last one. -/
def ParseError.token? : ParseError → Option Token
  | .token t _ => some t
  | .character _ _ _ => none
  | .ended last _ => last

/-- Where an error is. -/
def ParseError.place : ParseError → Position
  | .token t _ => t.start
  | .character _ p _ => p
  | .ended last _ => (endToken last).start

/-- How many characters an error goes over. -/
def ParseError.width : ParseError → Nat
  | .token t _ => t.text.length
  | .character _ _ _ => 1
  | .ended last _ => last.elim 0 (·.text.length)

def ParseError.isLineEnd (e : ParseError) : Bool := e.token?.any (·.terminal == .newline)

section Tokens

variable {t : Token} {before : List Char}

theorem Terminal.Matches.not_mem_lineFeed {t : Terminal} {lexeme : List Char}
    (h : t.Matches lexeme) (ht : t ≠ .newline) : '\n' ∉ lexeme := by
  intro hmem
  have hchars := h.chars '\n' hmem
  simp only [ht, false_and, or_false] at hchars
  exact absurd hchars (by decide)

theorem after_lineEnd {lexeme : List Char} (h : Terminal.newline.Matches lexeme) (p : Position) :
    (p.after lexeme).column = 1 := by
  cases h with
  | @newline lines hne hlines =>
    -- the last character is a line feed
    obtain ⟨lines, line, rfl⟩ := (List.eq_nil_or_concat lines).resolve_left hne
    rw [List.concat_eq_append] at hlines
    have hline := hlines line (List.mem_append_right lines List.mem_cons_self)
    rw [List.concat_eq_append, List.flatten_append, List.flatten_singleton, Position.after,
      List.foldl_append]
    rcases hline with rfl | rfl <;> rfl
  | literal h => cases h

/-- A token ends after its characters, and a line end at the beginning of a line. -/
theorem column_stop (hmatches : t.terminal.Matches t.text.toList) (hstart : t.start = .of before)
    (hstop : t.stop = .of (before ++ t.text.toList)) :
    t.stop.column = if t.terminal == .newline then 1 else t.start.column + t.text.length := by
  rw [hstop, hstart, ← Position.after_of]
  by_cases ht : t.terminal = .newline
  · rw [ht] at hmatches
    simp [ht, after_lineEnd hmatches]
  · simp [ht, Position.after_line _ (hmatches.not_mem_lineFeed ht), String.length_toList]

end Tokens

end GateScript.Source

namespace GateScript.Editor

open Source

/-- The span of an error. -/
structure Span.Reports (span : Span) (e : ParseError) : Prop where
  line : span.line + 1 = e.place.line
  start : span.start + 1 = e.place.column
  stop : span.stop = if e.isLineEnd then 0 else span.start + e.width

theorem Span.Reports.ordered_iff {span : Span} {e : ParseError} (h : span.Reports e) :
    span.start ≤ span.stop ↔ e.isLineEnd = false ∨ e.place.column = 1 := by
  rw [h.stop, ← h.start]
  cases e.isLineEnd <;> simp

theorem reports_token {t : Token} {before : List Char} (expected : List Terminal)
    (hmatches : t.terminal.Matches t.text.toList) (hstart : t.start = .of before)
    (hstop : t.stop = .of (before ++ t.text.toList)) :
    Span.Reports ⟨t.start.line - 1, t.start.column - 1, t.stop.column - 1⟩ (.token t expected) := by
  have hline : 1 ≤ t.start.line := by
    rw [hstart]
    exact Nat.le_add_left _ _
  have hcolumn : 1 ≤ t.start.column := by
    rw [hstart]
    exact Nat.le_add_left _ _
  have hlineEnd : (ParseError.token t expected).isLineEnd = (t.terminal == .newline) := rfl
  have hwidth : (ParseError.token t expected).width = t.text.length := rfl
  refine ⟨Nat.sub_add_cancel hline, Nat.sub_add_cancel hcolumn, ?_⟩
  rw [hlineEnd, hwidth, column_stop hmatches hstart hstop]
  by_cases ht : (t.terminal == .newline) = true
  · rw [if_pos ht, if_pos ht]
  · rw [if_neg ht, if_neg ht]
    exact Nat.sub_add_comm hcolumn

/-- The diagnostic of an error stands where the error does. -/
theorem reports_diagnosticOf {text : String} {e : ParseError} (h : parse text = .error e) :
    (diagnosticOf text e).span.Reports e := by
  obtain ⟨before, rest, -, hlays, hstands, -⟩ := error_stands h
  cases e with
  | token t expected =>
    obtain ⟨hstart, hstop, hmatches, -⟩ := hstands
    exact reports_token expected hmatches hstart hstop
  | character c p expected =>
    obtain ⟨rfl, -⟩ := hstands
    exact ⟨rfl, rfl, rfl⟩
  | ended last expected =>
    cases last with
    | none => exact ⟨rfl, rfl, rfl⟩
    | some t =>
      -- the end of the text stands where the last token does
      have hmem : t ∈ tokensOf text := List.mem_of_getLast? hstands.2.symm
      obtain ⟨passed, post, -, hstart, hstop⟩ := hlays.occurs t hmem
      rw [← List.append_assoc] at hstop
      have hreports := reports_token expected (hlays.matches t hmem) hstart hstop
      exact ⟨hreports.line, hreports.start, hreports.stop⟩

/-- A text has no diagnostic if it is a program, and one diagnostic if it is not. Its span is on the
line of the error, begins at its column and goes over its characters, unless the error is a line end:
then it ends at the beginning of the line. So it ends before it begins just if the error is a line
end that is not at the beginning of its line. -/
theorem diagnose_span (text : String) :
    (diagnose text = [] ↔ ∃ statements, parse text = .ok statements) ∧
    ∀ e, parse text = .error e → ∃ d, diagnose text = [d] ∧ d.span.Reports e ∧
      (d.span.start ≤ d.span.stop ↔ e.isLineEnd = false ∨ e.place.column = 1) := by
  constructor
  · unfold diagnose
    cases hparse : parse text <;> simp
  · intro e hparse
    have hreports := reports_diagnosticOf hparse
    refine ⟨diagnosticOf text e, ?_, hreports, hreports.ordered_iff⟩
    rw [diagnose, hparse]

/-- A text that ends where an item is missing, after a line end and a comment. -/
def unfinishedText : String := "x : q 0\n# all\nx -> H | S |"

def unfinishedError : ParseError :=
  .ended (some ⟨.bar, "|", ⟨3, 12⟩, ⟨3, 13⟩⟩) [.name, .upperName]

theorem diagnose_span_unfinished :
    parse unfinishedText = .error unfinishedError ∧
      ∃ d, diagnose unfinishedText = [d] ∧ d.span.Reports unfinishedError ∧
        d.span.start ≤ d.span.stop := by
  have hparse : parse unfinishedText = .error unfinishedError := by decide +kernel
  obtain ⟨d, hdiagnose, hreports, hordered⟩ := (diagnose_span unfinishedText).2 _ hparse
  exact ⟨hparse, d, hdiagnose, hreports, hordered.mpr (.inl rfl)⟩

/-- A name alone on its line: the span of its diagnostic ends before it begins. -/
theorem diagnose_lineEnd :
    (diagnose "a\n").map Diagnostic.span = [⟨0, 1, 0⟩] := by
  decide +kernel

end GateScript.Editor
