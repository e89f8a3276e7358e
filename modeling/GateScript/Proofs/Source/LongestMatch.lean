import GateScript.Proofs.Source.Layout

/-!
The longest match.

A terminal matches the longest of its texts at the front of a text. So what is read as a token
depends on the text after it only as far as a longer one could be made of that text.
-/
namespace GateScript.Source

section Terminals

variable {t : Terminal} {cs lexeme rest : List Char} {m : Match}

theorem scanFraction_length (whole cs : List Char) :
    whole.length ≤ (scanFraction whole cs).lexeme.length := by
  unfold scanFraction
  split
  · split
    · exact Nat.le_refl _
    · simp
  · exact Nat.le_refl _

theorem newlineRun_flatten {lines : List (List Char)}
    (h : ∀ line ∈ lines, line = ['\n'] ∨ line = ['\r', '\n']) (rest : List Char) :
    newlineRun (lines.flatten ++ rest) = lines.flatten ++ newlineRun rest := by
  induction lines with
  | nil => rfl
  | cons line lines ih =>
    obtain ⟨hline, hlines⟩ := List.forall_mem_cons.mp h
    rcases hline with rfl | rfl
    · exact congrArg (['\n'] ++ ·) (ih hlines)
    · exact congrArg (['\r', '\n'] ++ ·) (ih hlines)

theorem scanWord_matched {first more : Char → Bool} {c : Char} {cs : List Char} (hc : first c)
    (hcs : ∀ x ∈ cs, more x) (rest : List Char) :
    ∃ m, scanWord first more (c :: cs ++ rest) = some m ∧ (c :: cs).length ≤ m.lexeme.length := by
  rw [List.cons_append, scanWord, if_pos hc]
  refine ⟨_, rfl, ?_⟩
  rw [List.takeWhile_append_of_pos hcs]
  simp

theorem scanNumber_integer {digits : List Char} (h : IsDigits digits) (rest : List Char) :
    ∃ m, scanNumber (digits ++ rest) = some m ∧ digits.length ≤ m.lexeme.length := by
  have htake : (digits ++ rest).takeWhile Text.isDigit = digits ++ rest.takeWhile Text.isDigit :=
    List.takeWhile_append_of_pos h.2
  have hne : ((digits ++ rest).takeWhile Text.isDigit).isEmpty = false := by
    simp [htake, h.1]
  rw [scanNumber, hne]
  refine ⟨_, rfl, Nat.le_trans ?_ (scanFraction_length _ _)⟩
  simp [htake]

theorem scanNumber_decimal {whole fraction : List Char} (hwhole : IsDigits whole)
    (hfraction : IsDigits fraction) (rest : List Char) :
    ∃ m, scanNumber (whole ++ '.' :: fraction ++ rest) = some m ∧
      (whole ++ '.' :: fraction).length ≤ m.lexeme.length := by
  have hpoint : Text.isDigit '.' = false := by decide
  have hsplit : whole ++ '.' :: fraction ++ rest = whole ++ '.' :: (fraction ++ rest) := by simp
  have htake : (whole ++ '.' :: (fraction ++ rest)).takeWhile Text.isDigit = whole := by
    rw [List.takeWhile_append_of_pos hwhole.2]
    simp [hpoint]
  have hdrop : (whole ++ '.' :: (fraction ++ rest)).dropWhile Text.isDigit =
      '.' :: (fraction ++ rest) := by
    rw [List.dropWhile_append_of_pos hwhole.2]
    simp [hpoint]
  have hlater : (fraction ++ rest).takeWhile Text.isDigit =
      fraction ++ rest.takeWhile Text.isDigit := List.takeWhile_append_of_pos hfraction.2
  have hne : ((fraction ++ rest).takeWhile Text.isDigit).isEmpty = false := by
    simp [hlater, hfraction.1]
  have hwhole' : whole.isEmpty = false := by simp [hwhole.1]
  rw [hsplit, scanNumber, htake, hdrop, hwhole', scanFraction, hne]
  refine ⟨_, rfl, ?_⟩
  simp [hlater]

/-- A terminal that matches the front of a text matches at least as much there. -/
theorem Terminal.Matches.scan (h : t.Matches lexeme) (rest : List Char) :
    ∃ m, t.scan (lexeme ++ rest) = some m ∧ lexeme.length ≤ m.lexeme.length := by
  have hliteral : ∀ literal, ∃ m, scanLiteral literal (literal ++ rest) = some m ∧
      literal.length ≤ m.lexeme.length := fun literal =>
    ⟨_, scanLiteral_append literal rest, Nat.le_refl _⟩
  cases h with
  | name hc hcs => exact scanWord_matched hc hcs rest
  | upperName hc hcs => exact scanWord_matched hc hcs rest
  | integer hdigits => exact scanNumber_integer hdigits rest
  | decimal hwhole hfraction => exact scanNumber_decimal hwhole hfraction rest
  | @newline lines hne hlines =>
    have hmatches : Terminal.newline.Matches lines.flatten := .newline hne hlines
    have hrun := newlineRun_flatten hlines rest
    have hne' : (newlineRun (lines.flatten ++ rest)).isEmpty = false := by
      simpa [hrun] using fun h => absurd h (by simpa using hmatches.ne_nil)
    rw [Terminal.scan, scanNewlines, hne']
    refine ⟨_, rfl, ?_⟩
    rw [hrun]
    simp
  | q => exact hliteral ['q']
  | b => exact hliteral ['b']
  | @literal t s h =>
    obtain ⟨c, cs, hs, -, -, hscan, -⟩ := literal_first h
    rw [hs, hscan]
    exact hliteral (c :: cs)

theorem Terminal.scan_eq_none_iff :
    t.scan cs = none ↔ ∀ lexeme rest, cs = lexeme ++ rest → ¬t.Matches lexeme := by
  constructor
  · rintro hscan lexeme rest rfl hmatches
    obtain ⟨m, hm, -⟩ := hmatches.scan rest
    rw [hscan] at hm
    cases hm
  · intro h
    cases hscan : t.scan cs with
    | none => rfl
    | some m =>
      obtain ⟨hcs, hmatches⟩ := Terminal.scan_sound hscan
      exact absurd hmatches (h _ _ hcs)

/-- What a terminal matches is the longest of its texts at the front. -/
theorem Terminal.scan_eq_some_iff :
    t.scan (lexeme ++ rest) = some ⟨lexeme, rest⟩ ↔ t.Matches lexeme ∧
      ∀ lexeme' rest', lexeme ++ rest = lexeme' ++ rest' → t.Matches lexeme' →
        lexeme'.length ≤ lexeme.length := by
  constructor
  · intro hscan
    obtain ⟨-, hmatches⟩ := Terminal.scan_sound hscan
    refine ⟨hmatches, fun lexeme' rest' hsplit hmatches' => ?_⟩
    obtain ⟨m, hm, hlength⟩ := hmatches'.scan rest'
    rw [← hsplit, hscan] at hm
    cases hm
    exact hlength
  · rintro ⟨hmatches, hlongest⟩
    obtain ⟨m, hscan, hlength⟩ := hmatches.scan rest
    obtain ⟨hsplit, hmatches'⟩ := Terminal.scan_sound hscan
    have hsame : lexeme.length = m.lexeme.length :=
      Nat.le_antisymm hlength (hlongest _ _ hsplit hmatches')
    obtain ⟨hlexeme, hrest⟩ := List.append_inj hsplit hsame
    rw [hscan, hlexeme, hrest]

end Terminals

section Tokens

variable {allowed : List Terminal} {t : Terminal} {cs : List Char} {m : Match}

theorem scan_eq_some_iff :
    scan allowed cs = some (t, m) ↔ ∃ before u after, Terminal.tried = before ++ u :: after ∧
      allowed.contains u ∧ u.scan cs = some m ∧ reserve allowed u m.lexeme = t ∧
      ∀ v ∈ before, allowed.contains v → v.scan cs = none := by
  unfold scan
  rw [List.findSome?_eq_some_iff]
  constructor
  · rintro ⟨before, u, after, htried, hu, hbefore⟩
    obtain ⟨hallowed, hu⟩ := Option.ite_none_right_eq_some.mp hu
    obtain ⟨m', hscan, heq⟩ := Option.map_eq_some_iff.mp hu
    cases heq
    refine ⟨before, u, after, htried, hallowed, hscan, rfl, fun v hv hallowed' => ?_⟩
    have hnone := hbefore v hv
    rwa [if_pos hallowed', Option.map_eq_none_iff] at hnone
  · rintro ⟨before, u, after, htried, hallowed, hscan, rfl, hbefore⟩
    refine ⟨before, u, after, htried, ?_, fun v hv => ?_⟩
    · rw [if_pos hallowed, hscan]
      rfl
    · split
      · rw [hbefore v hv ‹_›]
        rfl
      · rfl

/-- What a terminal matches depends only on which of its texts stand at the front. -/
theorem Terminal.scan_congr {cs cs' : List Char}
    (h : ∀ lexeme, t.Matches lexeme → (lexeme <+: cs' ↔ lexeme <+: cs)) :
    t.scan cs' = (t.scan cs).map fun m => ⟨m.lexeme, cs'.drop m.lexeme.length⟩ := by
  cases hscan : t.scan cs with
  | none =>
    rw [Option.map_none, Terminal.scan_eq_none_iff]
    rintro lexeme rest rfl hmatches
    obtain ⟨rest', hcs⟩ := (h lexeme hmatches).mp (List.prefix_append _ _)
    exact Terminal.scan_eq_none_iff.mp hscan lexeme rest' hcs.symm hmatches
  | some m =>
    obtain ⟨lexeme, rest⟩ := m
    obtain ⟨rfl, hmatches⟩ := Terminal.scan_sound hscan
    obtain ⟨rest', rfl⟩ := (h lexeme hmatches).mpr (List.prefix_append _ _)
    rw [Option.map_some, List.drop_left, Terminal.scan_eq_some_iff]
    refine ⟨hmatches, fun found after hsplit hfound => ?_⟩
    obtain ⟨after', hsplit'⟩ := (h found hfound).mp ⟨after, hsplit.symm⟩
    exact (Terminal.scan_eq_some_iff.mp hscan).2 found after' hsplit'.symm hfound

theorem scan_congr {cs cs' : List Char}
    (h : ∀ (t : Terminal) (lexeme : List Char), t.Matches lexeme →
      (lexeme <+: cs' ↔ lexeme <+: cs)) :
    scan allowed cs' = (scan allowed cs).map fun found =>
      (found.1, ⟨found.2.lexeme, cs'.drop found.2.lexeme.length⟩) := by
  unfold scan
  rw [List.map_findSome?]
  congr 1
  funext t
  rw [Terminal.scan_congr (h t), Function.comp_apply]
  split
  · rw [Option.map_map, Option.map_map]
    rfl
  · rfl

/-- No token goes from a text over into what follows it. -/
def Apart (cs tail : List Char) : Prop :=
  ∀ (t : Terminal) (lexeme rest : List Char), cs ++ tail = lexeme ++ rest → t.Matches lexeme →
    lexeme.length ≤ cs.length

theorem apart_of_not_matches {cs tail : List Char}
    (h : ∀ (t : Terminal) (x : Char) (beyond rest : List Char), tail = x :: beyond ++ rest →
      ¬t.Matches (cs ++ x :: beyond)) : Apart cs tail := by
  intro t lexeme rest hsplit hmatches
  by_contra hlength
  rcases List.append_eq_append_iff.mp hsplit with ⟨beyond, rfl, htail⟩ | ⟨short, rfl, -⟩
  · cases beyond with
    | nil => simp at hlength
    | cons x beyond => exact h t x beyond rest htail hmatches
  · simp at hlength

/-- A token that ends before some text is read in the same way with another text there, unless a
token goes over into it. -/
theorem scan_apart {lexeme ahead tail tail' : List Char} (h : Apart (lexeme ++ ahead) tail')
    (hscan : scan allowed (lexeme ++ (ahead ++ tail)) = some (t, ⟨lexeme, ahead ++ tail⟩)) :
    scan allowed (lexeme ++ (ahead ++ tail')) = some (t, ⟨lexeme, ahead ++ tail'⟩) := by
  -- what matches at the front with the other text there matches with this one
  have hfront : ∀ (u : Terminal) (found rest : List Char),
      lexeme ++ (ahead ++ tail') = found ++ rest → u.Matches found →
      ∃ rest', lexeme ++ (ahead ++ tail) = found ++ rest' := by
    intro u found rest hsplit hmatches
    rw [← List.append_assoc] at hsplit
    have hlength := h u found rest hsplit hmatches
    obtain ⟨left, hleft⟩ := List.prefix_of_prefix_length_le
      ⟨rest, hsplit.symm⟩ (List.prefix_append (lexeme ++ ahead) tail') hlength
    exact ⟨left ++ tail, by rw [← List.append_assoc, ← List.append_assoc, hleft]⟩
  obtain ⟨before, u, after, htried, hallowed, hu, hreserve, hbefore⟩ := scan_eq_some_iff.mp hscan
  obtain ⟨hmatches, hlongest⟩ := Terminal.scan_eq_some_iff.mp hu
  rw [scan_eq_some_iff]
  refine ⟨before, u, after, htried, hallowed, ?_, hreserve, fun v hv hallowed' => ?_⟩
  · rw [Terminal.scan_eq_some_iff]
    refine ⟨hmatches, fun found rest hsplit hfound => ?_⟩
    obtain ⟨rest', hsplit'⟩ := hfront u found rest hsplit hfound
    exact hlongest found rest' hsplit' hfound
  · rw [Terminal.scan_eq_none_iff]
    intro found rest hsplit hfound
    obtain ⟨rest', hsplit'⟩ := hfront v found rest hsplit hfound
    exact Terminal.scan_eq_none_iff.mp (hbefore v hv hallowed') found rest' hsplit' hfound

end Tokens

section Words

variable {t : Terminal} {cs : List Char}

theorem isNameChar_of_isLower {c : Char} (h : c.isLower) : isNameChar c := by
  unfold isNameChar Char.isAlphanum Char.isAlpha
  rw [h, Bool.or_true, Bool.true_or, Bool.true_or]

theorem isNameChar_of_isUpper {c : Char} (h : c.isUpper) : isNameChar c := by
  unfold isNameChar Char.isAlphanum Char.isAlpha
  rw [h, Bool.true_or, Bool.true_or, Bool.true_or]

theorem isNameChar_of_isUpperNameChar {c : Char} (h : isUpperNameChar c) : isNameChar c := by
  rcases Bool.or_eq_true_iff.mp h with hupper | hdigit
  · exact isNameChar_of_isUpper hupper
  · unfold isNameChar Char.isAlphanum
    rw [hdigit, Bool.or_true, Bool.true_or]

/-- What the characters of tokens are: those of names, digits, a few marks, and line ends in the
tokens between lines. -/
theorem Terminal.Matches.chars (h : t.Matches cs) : ∀ x ∈ cs,
    isNameChar x ∨ Text.isDigit x ∨ x ∈ ".<->*:|(),[]".toList ∨
      t = .newline ∧ (x = '\n' ∨ x = '\r') := by
  cases h with
  | name hc hcs =>
    exact List.forall_mem_cons.mpr ⟨.inl (isNameChar_of_isLower hc), fun x hx => .inl (hcs x hx)⟩
  | upperName hc hcs =>
    refine List.forall_mem_cons.mpr ⟨.inl (isNameChar_of_isUpper hc), fun x hx => .inl ?_⟩
    exact isNameChar_of_isUpperNameChar (hcs x hx)
  | integer hdigits => exact fun x hx => .inr (.inl (hdigits.2 x hx))
  | decimal hwhole hfraction =>
    refine List.forall_mem_append.mpr ⟨fun x hx => .inr (.inl (hwhole.2 x hx)), ?_⟩
    refine List.forall_mem_cons.mpr ⟨by decide, fun x hx => .inr (.inl (hfraction.2 x hx))⟩
  | newline hne hlines =>
    intro x hx
    obtain ⟨line, hline, hx⟩ := List.mem_flatten.mp hx
    rcases hlines line hline with rfl | rfl
    · simp_all
    · simp_all [or_comm]
  | q => exact List.forall_mem_singleton.mpr (by decide)
  | b => exact List.forall_mem_singleton.mpr (by decide)
  | @literal t s h =>
    have hliteral : s.toList.all fun x => isNameChar x || ".<->*:|(),[]".toList.contains x := by
      cases t <;> cases h <;> decide
    intro x hx
    rcases Bool.or_eq_true_iff.mp (List.all_eq_true.mp hliteral x hx) with hname | hmark
    · exact .inl hname
    · exact .inr (.inr (.inl (List.contains_iff_mem.mp hmark)))

theorem literal_chars {s : String} (h : t.literal? = some s) :
    ' ' ∉ s.toList ∧ '\t' ∉ s.toList ∧ 'q' ∉ s.toList := by
  cases t <;> cases h <;> decide

theorem IsDigits.not_mem {digits : List Char} (h : IsDigits digits) {x : Char}
    (hx : Text.isDigit x = false) : x ∉ digits := by
  intro hmem
  rw [h.2 x hmem] at hx
  cases hx

/-- Only names have the letter `q` beside other characters, and no token has a blank in it. -/
theorem Terminal.Matches.nameChars (h : t.Matches cs) {x : Char} (hx : x ∈ cs)
    (hplain : x = ' ' ∨ x = '\t' ∨ x = 'q') : cs = ['q'] ∨ ∀ c ∈ cs, isNameChar c := by
  have hclasses : x.isUpper = false ∧ isUpperNameChar x = false ∧ Text.isDigit x = false ∧
      x ≠ '.' ∧ x ≠ '\n' ∧ x ≠ '\r' ∧ x ≠ 'b' := by
    rcases hplain with rfl | rfl | rfl <;> decide
  obtain ⟨hupper, hupperName, hdigit, hpoint, hfeed, hreturn, hb⟩ := hclasses
  cases h with
  | name hc hcs => exact .inr (List.forall_mem_cons.mpr ⟨isNameChar_of_isLower hc, hcs⟩)
  | upperName hc hcs =>
    rcases List.mem_cons.mp hx with rfl | hx
    · rw [hc] at hupper
      cases hupper
    · rw [hcs x hx] at hupperName
      cases hupperName
  | integer h => exact absurd hx (h.not_mem hdigit)
  | decimal hwhole hfraction =>
    rcases List.mem_append.mp hx with hx | hx
    · exact absurd hx (hwhole.not_mem hdigit)
    · exact absurd ((List.mem_cons.mp hx).resolve_left hpoint) (hfraction.not_mem hdigit)
  | newline hne hlines =>
    obtain ⟨line, hline, hx⟩ := List.mem_flatten.mp hx
    rcases hlines line hline with rfl | rfl
    · exact absurd (List.mem_singleton.mp hx) hfeed
    · simp [hfeed, hreturn] at hx
  | q => exact .inl rfl
  | b => exact absurd (List.mem_singleton.mp hx) hb
  | literal h =>
    obtain ⟨hblank, htab, hq⟩ := literal_chars h
    rcases hplain with rfl | rfl | rfl
    · exact absurd hx hblank
    · exact absurd hx htab
    · exact absurd hx hq

theorem apart_blank {c : Char} (hc : c = ' ' ∨ c = '\t') (cs rest : List Char) :
    Apart cs (c :: rest) := by
  refine apart_of_not_matches fun t x beyond rest' htail hmatches => ?_
  obtain rfl : c = x := (List.cons.inj htail).1
  have hmem : c ∈ cs ++ c :: beyond := List.mem_append_right cs List.mem_cons_self
  rcases hmatches.nameChars hmem (hc.imp_right .inl) with hword | hname
  · rw [hword] at hmem
    rcases hc with rfl | rfl <;> cases hmem <;> contradiction
  · have hchar := hname c hmem
    rcases hc with rfl | rfl <;> cases hchar

/-- The word `q` stands apart from what does not end like a name. -/
theorem apart_word {cs : List Char} (hne : cs ≠ [])
    (hlast : ∀ c ∈ cs.getLast?, isNameChar c = false) (rest : List Char) :
    Apart cs ('q' :: rest) := by
  refine apart_of_not_matches fun t x beyond rest' htail hmatches => ?_
  obtain rfl : 'q' = x := (List.cons.inj htail).1
  have hmem : 'q' ∈ cs ++ 'q' :: beyond := List.mem_append_right cs List.mem_cons_self
  rcases hmatches.nameChars hmem (.inr (.inr rfl)) with hword | hname
  · have hlength := congrArg List.length hword
    have hpos := List.length_pos_iff.mpr hne
    simp at hlength
    omega
  · have hchar := hname _ (List.mem_append_left _ (List.getLast_mem hne))
    rw [hlast _ (List.getLast?_eq_some_getLast hne)] at hchar
    cases hchar

end Words

end GateScript.Source
