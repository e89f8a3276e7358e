import GateScript.Proofs.Source.Scanning

/-!
How tokens lie in a text.

A text is laid out by its tokens, one after the other, with blanks, tabs and comments between them.
A token stands where the text before it ends, so later tokens stand at later positions.
-/
namespace GateScript.Source

section Positions

/-- The position after a text: its line feeds give the line, and the characters after the last of
them the column. -/
def Position.of (before : List Char) : Position :=
  ⟨before.count '\n' + 1, (before.reverse.takeWhile (· != '\n')).length + 1⟩

theorem Position.of_concat (before : List Char) (c : Char) :
    Position.of (before ++ [c]) = (Position.of before).next c := by
  unfold Position.of Position.next
  by_cases hc : c = '\n'
  · subst hc
    simp
  · simp [hc]

theorem Position.after_of (before cs : List Char) :
    (Position.of before).after cs = Position.of (before ++ cs) := by
  induction cs generalizing before with
  | nil => rw [List.append_nil]; rfl
  | cons c cs ih =>
    rw [Position.after, List.foldl_cons, ← Position.of_concat]
    exact (ih (before ++ [c])).trans (by rw [List.append_assoc, List.singleton_append])

theorem Position.after_line (p : Position) {cs : List Char} (h : '\n' ∉ cs) :
    p.after cs = ⟨p.line, p.column + cs.length⟩ := by
  induction cs generalizing p with
  | nil => rfl
  | cons c cs ih =>
    obtain ⟨hc, hcs⟩ : c ≠ '\n' ∧ '\n' ∉ cs := by simpa [eq_comm] using h
    have hnext : p.next c = ⟨p.line, p.column + 1⟩ := if_neg hc
    rw [Position.after, List.foldl_cons, hnext]
    refine (ih _ hcs).trans ?_
    rw [List.length_cons, Nat.add_assoc, Nat.add_comm 1]

/-- One position stands before another, by lines and then by columns. -/
def Position.Precedes (p q : Position) : Prop :=
  p.line < q.line ∨ p.line = q.line ∧ p.column < q.column

theorem Position.Precedes.trans {p q r : Position} (h : p.Precedes q) (h' : q.Precedes r) :
    p.Precedes r := by
  unfold Position.Precedes at *
  omega

theorem Position.precedes_next (p : Position) (c : Char) : p.Precedes (p.next c) := by
  unfold Position.Precedes Position.next
  split
  · exact .inl (Nat.lt_succ_self _)
  · exact .inr ⟨rfl, Nat.lt_succ_self _⟩

theorem Position.precedes_of_append (before : List Char) {cs : List Char} (hne : cs ≠ []) :
    (Position.of before).Precedes (.of (before ++ cs)) := by
  induction cs generalizing before with
  | nil => exact absurd rfl hne
  | cons c cs ih =>
    have hfirst := (Position.of before).precedes_next c
    rw [← Position.of_concat] at hfirst
    rw [← List.singleton_append, ← List.append_assoc]
    by_cases hcs : cs = []
    · rwa [hcs, List.append_nil]
    · exact hfirst.trans (ih (before ++ [c]) hcs)

end Positions

/-- One or more digits of any script. -/
def IsDigits (cs : List Char) : Prop := cs ≠ [] ∧ ∀ c ∈ cs, Text.isDigit c

/-- The texts of a terminal. -/
inductive Terminal.Matches : Terminal → List Char → Prop
  | name {c : Char} {cs : List Char} (hc : c.isLower) (hcs : ∀ x ∈ cs, isNameChar x) :
    Matches .name (c :: cs)
  | upperName {c : Char} {cs : List Char} (hc : c.isUpper) (hcs : ∀ x ∈ cs, isUpperNameChar x) :
    Matches .upperName (c :: cs)
  | integer {digits : List Char} (hdigits : IsDigits digits) : Matches .number digits
  | decimal {whole fraction : List Char} (hwhole : IsDigits whole) (hfraction : IsDigits fraction) :
    Matches .number (whole ++ '.' :: fraction)
  | newline {lines : List (List Char)} (hne : lines ≠ [])
      (hlines : ∀ line ∈ lines, line = ['\n'] ∨ line = ['\r', '\n']) :
    Matches .newline lines.flatten
  | q : Matches .q ['q']
  | b : Matches .b ['b']
  | literal {t : Terminal} {s : String} (h : t.literal? = some s) : Matches t s.toList

/-- A text lays out tokens, after the text `before`. A comment runs to the end of its line. -/
inductive Lays : List Char → List Token → List Char → Prop
  | nil {before : List Char} : Lays before [] []
  | blank {before rest : List Char} {tokens : List Token} {c : Char} (hc : c = ' ' ∨ c = '\t')
      (h : Lays (before ++ [c]) tokens rest) : Lays before tokens (c :: rest)
  | comment {before comment rest : List Char} {tokens : List Token} (hcomment : '\n' ∉ comment)
      (hrest : ∀ c ∈ rest.head?, c = '\n') (h : Lays (before ++ '#' :: comment) tokens rest) :
    Lays before tokens ('#' :: comment ++ rest)
  | token {before rest : List Char} {t : Token} {tokens : List Token}
      (htext : t.terminal.Matches t.text.toList) (hstart : t.start = .of before)
      (hstop : t.stop = .of (before ++ t.text.toList))
      (h : Lays (before ++ t.text.toList) tokens rest) :
    Lays before (t :: tokens) (t.text.toList ++ rest)

section Scanning

variable {cs : List Char} {m : Match}

theorem Terminal.Matches.ne_nil {t : Terminal} (h : t.Matches cs) : cs ≠ [] := by
  cases h with
  | name => exact List.cons_ne_nil _ _
  | upperName => exact List.cons_ne_nil _ _
  | integer hdigits => exact hdigits.1
  | decimal => simp
  | @newline lines hne hlines =>
    obtain ⟨line, lines, rfl⟩ := List.exists_cons_of_ne_nil hne
    rcases hlines line List.mem_cons_self with rfl | rfl <;> simp
  | q => exact List.cons_ne_nil _ _
  | b => exact List.cons_ne_nil _ _
  | literal h => obtain ⟨c, cs, hcs, -⟩ := literal_first h; simp [hcs]

theorem scanWord_sound {first more : Char → Bool} (h : scanWord first more cs = some m) :
    cs = m.lexeme ++ m.rest ∧
      ∃ c word, m.lexeme = c :: word ∧ first c ∧ ∀ x ∈ word, more x := by
  cases cs with
  | nil => simp [scanWord] at h
  | cons c cs =>
    obtain ⟨hc, ⟨⟩⟩ := Option.ite_none_right_eq_some.mp h
    refine ⟨by simp, c, cs.takeWhile more, rfl, hc, fun x hx => ?_⟩
    exact List.mem_takeWhile_imp hx

theorem isDigits_takeWhile (h : ¬(cs.takeWhile Text.isDigit).isEmpty = true) :
    IsDigits (cs.takeWhile Text.isDigit) :=
  ⟨by simpa using h, fun _ hc => List.mem_takeWhile_imp hc⟩

theorem scanFraction_sound {whole : List Char} (hwhole : IsDigits whole) (cs : List Char) :
    whole ++ cs = (scanFraction whole cs).lexeme ++ (scanFraction whole cs).rest ∧
      Terminal.number.Matches (scanFraction whole cs).lexeme := by
  unfold scanFraction
  split
  · split
    · exact ⟨rfl, .integer hwhole⟩
    · rename_i cs hfraction
      refine ⟨by simp, .decimal hwhole (isDigits_takeWhile hfraction)⟩
  · exact ⟨rfl, .integer hwhole⟩

theorem scanNumber_sound (h : scanNumber cs = some m) :
    cs = m.lexeme ++ m.rest ∧ Terminal.number.Matches m.lexeme := by
  unfold scanNumber at h
  split at h
  · cases h
  · rename_i hwhole
    cases h
    have hfraction := scanFraction_sound (isDigits_takeWhile hwhole) (cs.dropWhile Text.isDigit)
    rwa [List.takeWhile_append_dropWhile] at hfraction

/-- The line feeds at the front are whole line ends. -/
theorem newlineRun_sound (cs : List Char) :
    newlineRun cs <+: cs ∧ ∃ lines : List (List Char), newlineRun cs = lines.flatten ∧
      ∀ line ∈ lines, line = ['\n'] ∨ line = ['\r', '\n'] := by
  fun_induction newlineRun cs with
  | case1 cs ih =>
    obtain ⟨hrun, lines, hlines, hline⟩ := ih
    refine ⟨(List.prefix_cons_inj _).mpr hrun, ['\n'] :: lines, by simp [hlines], ?_⟩
    exact List.forall_mem_cons.mpr ⟨.inl rfl, hline⟩
  | case2 cs ih =>
    obtain ⟨hrun, lines, hlines, hline⟩ := ih
    refine ⟨?_, ['\r', '\n'] :: lines, by simp [hlines], ?_⟩
    · exact (List.prefix_cons_inj _).mpr ((List.prefix_cons_inj _).mpr hrun)
    · exact List.forall_mem_cons.mpr ⟨.inr rfl, hline⟩
  | case3 cs => exact ⟨List.nil_prefix, [], rfl, by simp⟩

theorem scanNewlines_sound (h : scanNewlines cs = some m) :
    cs = m.lexeme ++ m.rest ∧ Terminal.newline.Matches m.lexeme := by
  obtain ⟨hrun, lines, hlines, hline⟩ := newlineRun_sound cs
  unfold scanNewlines at h
  split at h
  · cases h
  · rename_i hne
    cases h
    refine ⟨(List.prefix_iff_eq_append.mp hrun).symm, ?_⟩
    have hne : lines ≠ [] := by
      rintro rfl
      simp [hlines] at hne
    rw [hlines]
    exact .newline hne hline

theorem scanLiteral_sound {literal : List Char} (h : scanLiteral literal cs = some m) :
    cs = m.lexeme ++ m.rest ∧ m.lexeme = literal := by
  obtain ⟨hfront, ⟨⟩⟩ := Option.ite_none_right_eq_some.mp h
  exact ⟨(List.prefix_iff_eq_append.mp (List.isPrefixOf_iff_prefix.mp hfront)).symm, rfl⟩

/-- What a terminal matches is one of its texts, and stands at the front. -/
theorem Terminal.scan_sound {t : Terminal} (h : t.scan cs = some m) :
    cs = m.lexeme ++ m.rest ∧ t.Matches m.lexeme := by
  cases hliteral : t.literal? with
  | some s =>
    obtain ⟨c, rest, hs, -, -, hscan, -⟩ := literal_first hliteral
    rw [hscan] at h
    obtain ⟨hcs, hlexeme⟩ := scanLiteral_sound h
    rw [← hs] at hlexeme
    exact ⟨hcs, hlexeme ▸ .literal hliteral⟩
  | none =>
    cases t with
    | name =>
      obtain ⟨hcs, c, word, hlexeme, hc, hword⟩ := scanWord_sound h
      exact ⟨hcs, hlexeme ▸ .name hc hword⟩
    | upperName =>
      obtain ⟨hcs, c, word, hlexeme, hc, hword⟩ := scanWord_sound h
      exact ⟨hcs, hlexeme ▸ .upperName hc hword⟩
    | number => exact scanNumber_sound h
    | newline => exact scanNewlines_sound h
    | q =>
      obtain ⟨hcs, hlexeme⟩ := scanLiteral_sound h
      exact ⟨hcs, hlexeme ▸ .q⟩
    | b =>
      obtain ⟨hcs, hlexeme⟩ := scanLiteral_sound h
      exact ⟨hcs, hlexeme ▸ .b⟩
    | endOfText => cases h
    | _ => cases hliteral

theorem reserve_matches {allowed : List Terminal} {t : Terminal} (h : t.Matches cs) :
    (reserve allowed t cs).Matches cs := by
  unfold reserve
  split
  · rename_i hq
    have hcs : cs = ['q'] := by simp_all
    exact hcs ▸ .q
  split
  · rename_i hb
    have hcs : cs = ['b'] := by simp_all
    exact hcs ▸ .b
  · exact h

theorem scan_sound {allowed : List Terminal} {t : Terminal} (h : scan allowed cs = some (t, m)) :
    cs = m.lexeme ++ m.rest ∧ t.Matches m.lexeme := by
  obtain ⟨u, -, hu⟩ := List.exists_of_findSome?_eq_some h
  split at hu
  · obtain ⟨m', hm, heq⟩ := Option.map_eq_some_iff.mp hu
    cases heq
    obtain ⟨hcs, hmatches⟩ := Terminal.scan_sound hm
    exact ⟨hcs, reserve_matches hmatches⟩
  · cases hu

end Scanning

section Skipping

theorem skip_comment (p : Position) (cs : List Char) :
    ∃ comment rest, cs = comment ++ rest ∧ '\n' ∉ comment ∧ (∀ c ∈ rest.head?, c = '\n') ∧
      skip true p cs = (p.after comment, rest) := by
  induction cs generalizing p with
  | nil => exact ⟨[], [], rfl, by simp, by simp, rfl⟩
  | cons c cs ih =>
    by_cases hc : c = '\n'
    · exact ⟨[], c :: cs, rfl, by simp, by simp [hc], by simp [skip, hc, Position.after]⟩
    · obtain ⟨comment, rest, rfl, hcomment, hrest, hskip⟩ := ih (p.next c)
      refine ⟨c :: comment, rest, rfl, ?_, hrest, ?_⟩
      · simp [hcomment, Ne.symm hc]
      · simp [skip, hc, hskip, Position.after]

/-- What is passed over lays out no tokens. -/
theorem skip_lays (before cs : List Char) :
    ∃ passed rest, cs = passed ++ rest ∧
      skip false (.of before) cs = (.of (before ++ passed), rest) ∧
      ∀ tokens, Lays (before ++ passed) tokens rest → Lays before tokens cs := by
  induction cs generalizing before with
  | nil => exact ⟨[], [], rfl, by simp [skip], fun _ h => by simpa using h⟩
  | cons c cs ih =>
    by_cases hblank : c = ' ' ∨ c = '\t'
    · obtain ⟨passed, rest, rfl, hskip, hlays⟩ := ih (before ++ [c])
      rw [List.append_assoc, List.singleton_append] at hskip hlays
      refine ⟨c :: passed, rest, rfl, ?_, fun tokens h => .blank hblank (hlays tokens h)⟩
      rw [← hskip, Position.of_concat]
      simp [skip, hblank]
    by_cases hcomment : c = '#'
    · subst hcomment
      obtain ⟨comment, rest, rfl, hcomment, hrest, hskip⟩ :=
        skip_comment ((Position.of before).next '#') cs
      refine ⟨'#' :: comment, rest, rfl, ?_, fun tokens h => .comment hcomment hrest h⟩
      have hafter : ((Position.of before).next '#').after comment =
          .of (before ++ '#' :: comment) := Position.after_of before ('#' :: comment)
      simp [skip, hskip, hafter]
    · refine ⟨[], c :: cs, rfl, ?_, fun _ h => by simpa using h⟩
      simp_all [skip]

end Skipping

section Laid

variable {before rest : List Char} {tokens : List Token}

/-- A token stands in the text, at the position where what comes before it ends. -/
def Token.OccursIn (t : Token) (before rest : List Char) : Prop :=
  ∃ passed post, rest = passed ++ (t.text.toList ++ post) ∧ t.start = .of (before ++ passed) ∧
    t.stop = .of (before ++ (passed ++ t.text.toList))

theorem Token.OccursIn.prepend {t : Token} {cs : List Char} (h : t.OccursIn (before ++ cs) rest) :
    t.OccursIn before (cs ++ rest) := by
  obtain ⟨passed, post, rfl, hstart, hstop⟩ := h
  rw [List.append_assoc] at hstart hstop
  refine ⟨cs ++ passed, post, (List.append_assoc _ _ _).symm, hstart, ?_⟩
  rw [hstop, List.append_assoc]

theorem Lays.occurs (h : Lays before tokens rest) : ∀ t ∈ tokens, t.OccursIn before rest := by
  induction h with
  | nil => simp
  | @blank before rest tokens c _ _ ih =>
    intro t ht
    have hprepend : t.OccursIn before ([c] ++ rest) := (ih t ht).prepend
    exact hprepend
  | comment _ _ _ ih => exact fun t ht => (ih t ht).prepend
  | @token before rest t tokens _ hstart hstop _ ih =>
    refine List.forall_mem_cons.mpr ⟨⟨[], rest, rfl, ?_, hstop⟩, fun t' ht' => (ih t' ht').prepend⟩
    rw [hstart, List.append_nil]

theorem Lays.matches (h : Lays before tokens rest) :
    ∀ t ∈ tokens, t.terminal.Matches t.text.toList := by
  induction h with
  | nil => simp
  | blank _ _ ih => exact ih
  | comment _ _ _ ih => exact ih
  | token htext _ _ _ ih => exact List.forall_mem_cons.mpr ⟨htext, ih⟩

/-- Tokens stand one after the other. -/
theorem Lays.pairwise (h : Lays before tokens rest) :
    tokens.Pairwise fun t t' => t.start.Precedes t'.start := by
  induction h with
  | nil => exact .nil
  | blank _ _ ih => exact ih
  | comment _ _ _ ih => exact ih
  | @token before rest t tokens htext hstart hstop h ih =>
    refine List.pairwise_cons.mpr ⟨fun t' ht' => ?_, ih⟩
    obtain ⟨passed, post, -, hstart', -⟩ := h.occurs t' ht'
    rw [hstart, hstart', List.append_assoc]
    exact Position.precedes_of_append before (List.append_ne_nil_of_left_ne_nil htext.ne_nil passed)

end Laid

end GateScript.Source
