import GateScript.Proofs.Source.QubitWord
import GateScript.Proofs.Source.Yield

/-!
Comments are blanks.

A comment is passed over like a run of blanks, and no token has a `#` in it. So a text with blanks in
place of its comments is read in the same way, character by character: to the same statements with
the same tokens at the same places, or to the same error.
-/
namespace GateScript.Source

section Blanking

/-- Does a comment run up to the end of a text? There is a `#` on its last line then. -/
def commented (before : List Char) : Bool := (before.reverse.takeWhile (· != '\n')).contains '#'

/-- A text with a blank in place of every character of a comment. -/
def blankComments (text : String) : String :=
  .ofList (text.toList.mapIdx fun i c => if commented (text.toList.take (i + 1)) then ' ' else c)

/-- The same from left to right, with a note of whether a comment is running. -/
def blankFrom (running : Bool) : List Char → List Char
  | [] => []
  | c :: cs =>
    let running := (running || c == '#') && c != '\n'
    (if running then ' ' else c) :: blankFrom running cs

theorem commented_concat (before : List Char) (c : Char) :
    commented (before ++ [c]) = ((commented before || c == '#') && c != '\n') := by
  unfold commented
  rw [List.reverse_concat, List.takeWhile_cons]
  by_cases hc : c = '\n'
  · have hline : (c != '\n') = false := by simpa using hc
    rw [hline, Bool.and_false]
    rfl
  · have hline : (c != '\n') = true := by simpa using hc
    rw [hline, if_pos rfl, List.contains_cons, Bool.and_true, Bool.or_comm, Bool.beq_comm]

theorem blankFrom_commented (before cs : List Char) :
    blankFrom (commented before) cs =
      cs.mapIdx fun i c => if commented (before ++ cs.take (i + 1)) then ' ' else c := by
  induction cs generalizing before with
  | nil => rfl
  | cons c cs ih =>
    have hrest := ih (before ++ [c])
    simp only [List.append_assoc, List.singleton_append] at hrest
    rw [blankFrom, ← commented_concat, hrest, List.mapIdx_cons]
    rfl

theorem toList_blankComments (text : String) :
    (blankComments text).toList = blankFrom false text.toList := by
  rw [blankComments, String.toList_ofList]
  exact (blankFrom_commented [] text.toList).symm

end Blanking

section Tokens

variable {lexeme cs : List Char}

/-- No token has a blank or the beginning of a comment in it. -/
theorem Terminal.Matches.ne_comment {t : Terminal} (h : t.Matches lexeme) :
    ∀ x ∈ lexeme, x ≠ '#' ∧ x ≠ ' ' := by
  intro x hx
  have hchars := h.chars x hx
  constructor
  · rintro rfl
    exact absurd hchars (by cases t <;> decide)
  · rintro rfl
    exact absurd hchars (by cases t <;> decide)

/-- Outside comments every character stays. -/
theorem blankFrom_cons {c : Char} (hc : c ≠ '#') (cs : List Char) :
    blankFrom false (c :: cs) = c :: blankFrom false cs := by
  have hrunning : ((false || c == '#') && c != '\n') = false := by simp [hc]
  rw [blankFrom, hrunning]
  rfl

theorem blankFrom_comment {running : Bool} {c : Char} (hc : (running || c == '#') = true)
    (hline : c ≠ '\n') (cs : List Char) :
    blankFrom running (c :: cs) = ' ' :: blankFrom true cs := by
  have hrunning : ((running || c == '#') && c != '\n') = true := by simpa [hline] using hc
  rw [blankFrom, hrunning]
  rfl

theorem blankFrom_append (h : '#' ∉ lexeme) (rest : List Char) :
    blankFrom false (lexeme ++ rest) = lexeme ++ blankFrom false rest := by
  induction lexeme with
  | nil => rfl
  | cons x lexeme ih =>
    obtain ⟨hx, hlexeme⟩ : x ≠ '#' ∧ '#' ∉ lexeme := by simpa [eq_comm] using h
    rw [List.cons_append, blankFrom_cons hx, ih hlexeme, List.cons_append]

/-- A token stands at the front of a text with its comments if and only if it does without them. -/
theorem prefix_blankFrom (h : ∀ x ∈ lexeme, x ≠ '#' ∧ x ≠ ' ') (cs : List Char) :
    lexeme <+: blankFrom false cs ↔ lexeme <+: cs := by
  induction lexeme generalizing cs with
  | nil => simp
  | cons x lexeme ih =>
    obtain ⟨⟨hcomment, hblank⟩, hlexeme⟩ := List.forall_mem_cons.mp h
    cases cs with
    | nil => simp [blankFrom]
    | cons c cs =>
      by_cases hc : c = '#'
      · subst hc
        rw [blankFrom_comment rfl (by decide), List.cons_prefix_cons, List.cons_prefix_cons]
        simp [hcomment, hblank]
      · rw [blankFrom_cons hc, List.cons_prefix_cons, List.cons_prefix_cons, ih hlexeme]

theorem scan_blankFrom (allowed : List Terminal) (cs : List Char) :
    scan allowed (blankFrom false cs) = (scan allowed cs).map fun found =>
      (found.1, ⟨found.2.lexeme, blankFrom false found.2.rest⟩) := by
  rw [scan_congr fun t lexeme hmatches => prefix_blankFrom hmatches.ne_comment cs]
  cases hscan : scan allowed cs with
  | none => rfl
  | some found =>
    obtain ⟨terminal, m⟩ := found
    obtain ⟨rfl, hmatches⟩ := scan_sound hscan
    have hcomment : '#' ∉ m.lexeme := fun hmem => (hmatches.ne_comment '#' hmem).1 rfl
    rw [Option.map_some, Option.map_some, blankFrom_append hcomment, List.drop_left]

/-- A comment is passed over as the blanks in its place are. -/
theorem skip_blankFrom (running : Bool) (p : Position) (cs : List Char) :
    skip false p (blankFrom running cs) =
      ((skip running p cs).1, blankFrom false (skip running p cs).2) := by
  induction cs generalizing running p with
  | nil => rfl
  | cons c cs ih =>
    by_cases hline : c = '\n'
    · subst hline
      cases running <;> rfl
    by_cases hc : (running || c == '#') = true
    · have hnext : p.next ' ' = p.next c := by simp [Position.next, hline]
      have hstops : stopsAt running c = false := by
        cases running with
        | true => simpa [stopsAt] using hline
        | false =>
          have hcomment : c = '#' := by simpa using hc
          rw [hcomment]
          rfl
      rw [blankFrom_comment hc hline, skip_cons, skip_cons, hstops, hc, hnext]
      exact ih true (p.next c)
    · obtain ⟨rfl, hcomment⟩ : running = false ∧ c ≠ '#' := by simpa using hc
      rw [blankFrom_cons hcomment, skip_cons, skip_cons]
      have hcomment' : (c == '#') = false := by simpa using hcomment
      cases hstops : stopsAt false c with
      | true => simp [blankFrom_cons hcomment]
      | false =>
        rw [hcomment']
        exact ih false (p.next c)

/-- Passing over stops at no comment. -/
theorem ne_comment_of_skip {running : Bool} {p q : Position} {c : Char} {rest : List Char}
    (h : skip running p cs = (q, c :: rest)) : c ≠ '#' := by
  induction cs generalizing running p with
  | nil => cases h
  | cons d cs ih =>
    rw [skip_cons] at h
    split at h
    · rename_i hstops
      cases h
      rintro rfl
      cases running <;> cases hstops
    · exact ih h

end Tokens

section Reading

variable {tokens : List Token} {result : Except ParseError (List Statement)} {r : Reader}
  {last : Option Token} {start : Position} {cs : List Char}

theorem unmatched_blankFrom (allowed : List Terminal) (p : Position) {c : Char} (hc : c ≠ '#')
    (rest : List Char) :
    unmatched allowed p c (blankFrom false rest) = unmatched allowed p c rest := by
  unfold unmatched
  rw [← blankFrom_cons hc, scan_blankFrom]
  cases scan Terminal.every (c :: rest) <;> rfl

theorem scan_blanked {allowed : List Terminal} {terminal : Terminal} {m : Match}
    (hscan : scan allowed cs = some (terminal, m)) :
    scan allowed (blankFrom false cs) = some (terminal, ⟨m.lexeme, blankFrom false m.rest⟩) := by
  rw [scan_blankFrom, hscan]
  rfl

theorem skip_blanked {p : Position} {left : List Char} (hskip : skip false start cs = (p, left)) :
    skip false start (blankFrom false cs) = (p, blankFrom false left) := by
  rw [skip_blankFrom, hskip]

/-- With blanks in place of its comments a text yields the same. -/
theorem Yields.blanked (h : Yields tokens result r last start cs) :
    Yields tokens result r last start (blankFrom false cs) := by
  induction h with
  | ended hskip => exact .ended (skip_blanked hskip)
  | @unmatched r last start p c cs rest hskip hscan =>
    have hc := ne_comment_of_skip hskip
    have hblanked := skip_blanked hskip
    have hscan' : scan r.stage.follow (blankFrom false (c :: rest)) = none := by
      rw [scan_blankFrom, hscan]
      rfl
    rw [blankFrom_cons hc] at hblanked hscan'
    rw [← unmatched_blankFrom _ _ hc]
    exact .unmatched hblanked hscan'
  | @refused r last start p cs left terminal m expected hskip hscan hfeed =>
    exact .refused (m := ⟨m.lexeme, blankFrom false m.rest⟩) (skip_blanked hskip)
      (scan_blanked hscan) hfeed
  | @token tokens result r r' last start p cs left terminal m hskip hscan hfeed _ ih =>
    exact .token (m := ⟨m.lexeme, blankFrom false m.rest⟩) (skip_blanked hskip)
      (scan_blanked hscan) hfeed ih

end Reading

/-- A text with a blank in place of every character of a comment is read as the text itself is: to
the same statements with the same tokens, or to the same error, and of the same tokens in all. -/
theorem parse_blankComments (text : String) :
    parse (blankComments text) = parse text ∧ tokensOf (blankComments text) = tokensOf text := by
  have hblanked := (yields_parse text).blanked
  rw [← toList_blankComments] at hblanked
  obtain ⟨htokens, hparse⟩ := hblanked.eq
  exact ⟨hparse, htokens⟩

/-- A comment with a carriage return in it and a second `#`, right behind a name and before an empty
line. -/
example : blankComments "x# a\r# b\n\n0 -> H#" = "x       \n\n0 -> H " := by decide

end GateScript.Source
