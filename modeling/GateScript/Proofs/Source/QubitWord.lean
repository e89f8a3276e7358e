import GateScript.Proofs.Source.LineEnds
import GateScript.Proofs.Source.LongestMatch
import GateScript.Proofs.Source.Operands
import GateScript.Proofs.Source.Soundness

/-!
The word `q` before a number.

Wherever a number is read as an operand, the word `q` can be written before it. The tokens before it
are read as they were, since none of them goes over into the word; then the word and the number are
read in place of the number, and what comes after is read as it was.
-/
namespace GateScript.Source

section Skipping

/-- Where passing over stops. -/
def stopsAt (inComment : Bool) (c : Char) : Bool :=
  if inComment then c == '\n' else !(c == ' ' || c == '\t' || c == '#')

theorem skip_cons (inComment : Bool) (p : Position) (c : Char) (cs : List Char) :
    skip inComment p (c :: cs) =
      if stopsAt inComment c then (p, c :: cs) else skip (inComment || c == '#') (p.next c) cs := by
  rw [skip]
  cases inComment with
  | true => simp [stopsAt]
  | false =>
    by_cases hblank : c = ' ' ∨ c = '\t'
    · rcases hblank with rfl | rfl <;> simp [stopsAt]
    · obtain ⟨hspace, htab⟩ := not_or.mp hblank
      by_cases hcomment : c = '#' <;> simp [stopsAt, hspace, htab, hcomment]

/-- Where passing over stops does not depend on the position. -/
theorem skip_from {inComment : Bool} {p q : Position} {cs rest : List Char}
    (h : skip inComment p cs = (q, rest)) (p' : Position) :
    ∃ q', skip inComment p' cs = (q', rest) := by
  induction cs generalizing inComment p p' with
  | nil =>
    cases h
    exact ⟨p', rfl⟩
  | cons c cs ih =>
    rw [skip_cons] at h ⊢
    split at h
    · cases h
      exact ⟨p', if_pos ‹_›⟩
    · rw [if_neg ‹_›]
      exact ih h _

/-- Nor does it depend on what comes after the character there. -/
theorem skip_continued {inComment : Bool} {p p' : Position} {passed rest : List Char} {c : Char}
    (h : skip inComment p (passed ++ c :: rest) = (p', c :: rest)) (rest' : List Char) :
    skip inComment p (passed ++ c :: rest') = (p', c :: rest') := by
  induction passed generalizing inComment p with
  | nil =>
    rw [List.nil_append, skip_cons] at h ⊢
    split at h
    · rw [if_pos ‹_›]
      cases h
      rfl
    · have hlength := length_skip_le (inComment || c == '#') (p.next c) rest
      rw [h] at hlength
      simp at hlength
  | cons d passed ih =>
    rw [List.cons_append, skip_cons] at h ⊢
    split at h
    · have hlength := congrArg (fun found => found.2.length) h
      simp at hlength
      omega
    · rw [if_neg ‹_›]
      exact ih h

def IsBlank (c : Char) : Prop := c = ' ' ∨ c = '\t'

theorem skip_blanks {blanks : List Char} (h : ∀ c ∈ blanks, IsBlank c) (p : Position)
    (rest : List Char) : skip false p (blanks ++ rest) = skip false (p.after blanks) rest := by
  induction blanks generalizing p with
  | nil => rfl
  | cons c blanks ih =>
    obtain ⟨hc, hblanks⟩ := List.forall_mem_cons.mp h
    rw [List.cons_append, skip_cons]
    rcases hc with rfl | rfl
    · exact ih hblanks _
    · exact ih hblanks _

/-- Before a token on the same line there are blanks only. -/
theorem passed_blank {p p' : Position} {passed rest : List Char} {c : Char}
    (h : skip false p (passed ++ c :: rest) = (p', c :: rest)) (hc : c ≠ '\n') :
    ∀ x ∈ passed, IsBlank x := by
  induction passed generalizing p with
  | nil => simp
  | cons d passed ih =>
    by_cases hcomment : d = '#'
    · -- a comment ends at the end of its line
      subst hcomment
      obtain ⟨comment, left, -, -, hleft, hskip⟩ := skip_comment (p.next '#') (passed ++ c :: rest)
      rw [List.cons_append, skip_cons] at h
      have hend := hskip.symm.trans h
      cases hend
      exact absurd (hleft c rfl) hc
    · rw [List.cons_append, skip_cons] at h
      split at h
      · have hlength := congrArg (fun found => found.2.length) h
        simp at hlength
        omega
      · rename_i hstops
        have hd : IsBlank d := or_iff_not_imp_left.mpr (by simpa [stopsAt, hcomment] using hstops)
        have hfalse : (d == '#') = false := by simpa using hcomment
        rw [hfalse] at h
        exact List.forall_mem_cons.mpr ⟨hd, ih h⟩

theorem passed_blank_of_digits {p p' : Position} {passed digits rest : List Char}
    (hdigits : IsDigits digits)
    (h : skip false p (passed ++ (digits ++ rest)) = (p', digits ++ rest)) :
    ∀ x ∈ passed, IsBlank x := by
  obtain ⟨c, digits, rfl⟩ := List.exists_cons_of_ne_nil hdigits.1
  have hc : Text.isDigit c := hdigits.2 c List.mem_cons_self
  apply passed_blank h
  rintro rfl
  cases hc

end Skipping

section Scanning

variable {allowed allowed' : List Terminal} {cs : List Char} {t : Terminal} {m : Match}

theorem reserve_inv {u : Terminal} {lexeme : List Char} (h : reserve allowed u lexeme = t)
    (hq : t ≠ .q) (hb : t ≠ .b) : u = t := by
  unfold reserve at h
  split at h
  · exact absurd h.symm hq
  split at h
  · exact absurd h.symm hb
  · exact h

theorem scan_terminal (h : scan allowed cs = some (t, m)) (hq : t ≠ .q) (hb : t ≠ .b) :
    t.scan cs = some m := by
  obtain ⟨before, u, after, -, -, hscan, hreserve, -⟩ := scan_eq_some_iff.mp h
  rwa [reserve_inv hreserve hq hb] at hscan

/-- A terminal that is always written in the same way is read wherever it is allowed. -/
theorem scan_literal {s : String} (hliteral : t.literal? = some s)
    (h : scan allowed cs = some (t, m)) (hallowed : allowed'.contains t) :
    scan allowed' cs = some (t, m) := by
  obtain ⟨c, lexeme, hs, htried, hname, hscan, hbefore⟩ := literal_first hliteral
  have hnot : t ≠ .q ∧ t ≠ .b := by
    constructor <;> rintro rfl <;> cases hliteral
  have hfound := scan_terminal h hnot.1 hnot.2
  obtain ⟨hsplit, hmatch⟩ := scanLiteral_sound (hscan ▸ hfound)
  rw [scan_eq htried hallowed hfound fun u hu _ => ?_, reserve_eq hname]
  rw [hsplit, hmatch, List.cons_append]
  exact Terminal.scan_eq_none (hbefore u hu) _

theorem scan_word (hname : allowed.contains .name) (hq : allowed.contains .q) {c : Char}
    (hc : IsBlank c) (rest : List Char) :
    scan allowed ('q' :: c :: rest) = some (.q, ⟨['q'], c :: rest⟩) := by
  have hstop : ∀ x ∈ (c :: rest).head?, isNameChar x = false := by
    intro x hx
    cases hx
    rcases hc with rfl | rfl <;> decide
  have hfirst : Char.isLower 'q' := by decide
  have hword : ∀ x ∈ ([] : List Char), isNameChar x := by simp
  have hfound : Terminal.name.scan ('q' :: [] ++ c :: rest) = some ⟨'q' :: [], c :: rest⟩ :=
    scanWord_append hfirst hword hstop
  have hbefore : ∀ u ∈ Terminal.tried.takeWhile (· != .name), u.begins 'q' = false := by decide
  have hscan := scan_eq (by decide) hname hfound fun u hu _ =>
    Terminal.scan_eq_none (hbefore u hu) _
  have hreserve : reserve allowed .name ['q'] = .q := by simpa [reserve] using hq
  rwa [hreserve] at hscan

theorem scan_number (h : scan allowed cs = some (.number, m)) (site : OperandSite) :
    scan (Stage.qubitWord site).follow cs = some (.number, m) := by
  have hfound := scan_terminal h (by decide) (by decide)
  rw [scan_eq (by decide) rfl hfound fun u hu hallowed => ?_, reserve_eq (by decide)]
  have hbefore : ∀ u ∈ Terminal.tried.takeWhile (· != .number),
      (Stage.qubitWord .target).follow.contains u = false := by decide
  have hnot : (Stage.qubitWord site).follow.contains u = false := hbefore u hu
  rw [hnot] at hallowed
  cases hallowed

end Scanning

section Pairings

/-- Tokens that differ in their positions at most. -/
def Token.SameText (t t' : Token) : Prop := t'.terminal = t.terminal ∧ t'.text = t.text

/-- Operands that differ in the positions of tokens, or in the word `q` before an integer. -/
inductive Operand.Reworded : Operand → Operand → Prop
  | name {t t' : Token} (h : t.SameText t') : Reworded (.name t) (.name t')
  | number {t t' : Token} (h : t.SameText t') : Reworded (.number t) (.number t')
  | qubit {t t' : Token} (h : t.SameText t') : Reworded (.qubit t) (.qubit t')
  | word {t t' : Token} (h : t.SameText t') (ht : t.terminal = .number)
      (hdigits : IsDigits t.text.toList) : Reworded (.number t) (.qubit t')

def reworded : Pairing where
  token := Token.SameText
  operand := Operand.Reworded
  terminal := And.left

theorem reworded_tokens {t t' : Token} (h : t.SameText t') : reworded.Tokens t t' :=
  ⟨h, .name h, .qubit h⟩

theorem reworded_numbers {t t' : Token} (h : t.SameText t') : reworded.Numbers t t' :=
  fun _ => .number h

theorem Match.token_sameText (m : Match) (t : Terminal) (p p' : Position) :
    (m.token t p).SameText (m.token t p') := ⟨rfl, rfl⟩

theorem endToken_numbers (P : Pairing) (last last' : Option Token) :
    P.Numbers (endToken last) (endToken last') := by
  intro h
  cases last <;> cases h

theorem endToken_sameText (last last' : Option Token) :
    (endToken last).SameText (endToken last') := by
  cases last <;> cases last' <;> exact ⟨rfl, rfl⟩

end Pairings

section Positions

theorem Position.Precedes.ne {p q : Position} (h : p.Precedes q) : p ≠ q := by
  rintro rfl
  unfold Position.Precedes at h
  omega

theorem Position.Precedes.append {p : Position} {before : List Char}
    (h : p.Precedes (.of before)) (more : List Char) : p.Precedes (.of (before ++ more)) := by
  cases more with
  | nil => rwa [List.append_nil]
  | cons c more => exact h.trans (Position.precedes_of_append before (List.cons_ne_nil c more))

/-- Beginnings of one text that end at the same position are the same. -/
theorem Position.of_inj {before before' rest rest' : List Char}
    (happend : before ++ rest = before' ++ rest') (h : Position.of before = .of before') :
    before = before' := by
  rcases List.append_eq_append_iff.mp happend with ⟨more, rfl, -⟩ | ⟨more, rfl, -⟩
  · cases more with
    | nil => exact (List.append_nil _).symm
    | cons c more =>
      exact absurd h (Position.precedes_of_append before (List.cons_ne_nil c more)).ne
  · cases more with
    | nil => exact List.append_nil _
    | cons c more =>
      exact absurd h.symm (Position.precedes_of_append before' (List.cons_ne_nil c more)).ne

end Positions

section Reading

/-- How a text is read to its end, token by token. -/
inductive ReadsTo (statements : List Statement) :
    Reader → Option Token → Position → List Char → Prop
  | ended {r : Reader} {last : Option Token} {start p : Position} {cs : List Char}
      (hskip : skip false start cs = (p, []))
      (hfeed : r.feed (endToken last) = .whole statements) : ReadsTo statements r last start cs
  | token {r r' : Reader} {last : Option Token} {start p : Position} {cs left : List Char}
      {terminal : Terminal} {m : Match} (hskip : skip false start cs = (p, left))
      (hscan : scan r.stage.follow left = some (terminal, m))
      (hfeed : r.feed (m.token terminal p) = .reading r')
      (h : ReadsTo statements r' (some (m.token terminal p)) (p.after m.lexeme) m.rest) :
      ReadsTo statements r last start cs

variable {r r' : Reader} {last : Option Token} {start : Position} {cs : List Char}
  {statements : List Statement}

theorem readFrom_eq_ok_iff :
    readFrom r last start cs = .ok statements ↔ ReadsTo statements r last start cs := by
  constructor
  · intro hread
    fun_induction readFrom r last start cs
    case case1 r last start cs p hs statements' hfeed =>
      cases hread
      exact .ended hs hfeed
    case case4 r last start cs p c left hs terminal m hm t r' hfeed ih =>
      exact .token hs hm hfeed (ih hread)
    case case5 r last start cs p c left hs terminal m hm t statements' hfeed =>
      -- only the end of the text makes a program whole
      exact absurd (ends_of_whole hfeed).1 (scan_sound hm).2.ne_end
    all_goals cases hread
  · intro h
    induction h with
    | ended hskip hfeed => exact readFrom_end hskip hfeed
    | token hskip hscan hfeed _ ih => rw [readFrom_token hskip hscan hfeed, ih]

/-- Readers that have read the same read on to the same. -/
theorem ReadsTo.reworded (h : ReadsTo statements r last start cs)
    (hr : Source.reworded.Readers r r') (last' : Option Token) (start' : Position) :
    ∃ statements', ReadsTo statements' r' last' start' cs ∧
      List.Forall₂ Source.reworded.Statements statements statements' := by
  induction h generalizing r' last' start' with
  | @ended r last start p cs hskip hfeed =>
    have hend := endToken_sameText last last'
    have hpaired := Pairing.feed_paired (reworded_tokens hend) (endToken_numbers _ _ _) hr
    rw [hfeed] at hpaired
    obtain ⟨statements', hfeed', hstatements⟩ := hpaired.of_whole
    obtain ⟨p', hskip'⟩ := skip_from hskip start'
    exact ⟨statements', .ended hskip' hfeed', hstatements⟩
  | @token r r₁ last start p cs left terminal m hskip hscan hfeed _ ih =>
    obtain ⟨p', hskip'⟩ := skip_from hskip start'
    have hsame := m.token_sameText terminal p p'
    have hpaired := Pairing.feed_paired (reworded_tokens hsame) (reworded_numbers hsame) hr
    rw [hfeed] at hpaired
    obtain ⟨r₁', hfeed', hr₁⟩ := hpaired.of_reading
    rw [← hr.stage.follow_eq] at hscan
    obtain ⟨statements', hreads, hstatements⟩ := ih hr₁ _ _
    exact ⟨statements', .token hskip' hscan hfeed' hreads, hstatements⟩

/-- After the word `q` and an integer everything is read as after the integer alone. -/
theorem ReadsTo.written {done done' : List Statement} {site site' : OperandSite} {t t' : Token}
    (h : ReadsTo statements ⟨done, site.written (.number t)⟩ last start cs)
    (hdone : List.Forall₂ Source.reworded.Statements done done')
    (hsite : Source.reworded.OperandSites site site')
    (ht : Operand.Reworded (.number t) (.qubit t')) (last' : Option Token) (start' : Position) :
    ∃ statements', ReadsTo statements' ⟨done', .qubit site' t'⟩ last' start' cs ∧
      List.Forall₂ Source.reworded.Statements statements statements' := by
  cases h with
  | ended hskip hfeed =>
    have hnewline := (ends_of_whole hfeed).2.follow
    cases (follow_written hnewline site' t').1
  | @token _ r _ _ p _ left terminal m hskip hscan hfeed h =>
    obtain ⟨p', hskip'⟩ := skip_from hskip start'
    have hsame := m.token_sameText terminal p p'
    obtain ⟨r', hfeed', hr⟩ := feed_written hdone hsite ht (reworded_tokens hsame) hfeed
    have hfollow : (Stage.qubit site' t').follow.contains terminal :=
      (follow_written (follow_of_feed hfeed) site' t').1
    have hterminal : terminal = .comma ∨ terminal = .closeParen ∨ terminal = .closeBracket ∨
        terminal = .arrow := by simpa [Stage.follow] using hfollow
    have hscan' : scan (Stage.qubit site' t').follow left = some (terminal, m) := by
      rcases hterminal with rfl | rfl | rfl | rfl <;> exact scan_literal rfl hscan rfl
    obtain ⟨statements', hreads, hstatements⟩ := h.reworded hr _ _
    exact ⟨statements', .token hskip' hscan' hfeed' hreads, hstatements⟩

/-- At the end of the text no operand is made. -/
theorem not_mem_of_whole {t : Token} (hr : (Pairing.without t).Readers r r)
    (hfeed : r.feed (endToken last) = .whole statements) :
    Operand.number t ∉ statements.flatMap Statement.operands := by
  have hpaired := Pairing.feed_paired (Pairing.without_tokens t (endToken last))
    (endToken_numbers _ last last) hr
  rw [hfeed] at hpaired
  cases hpaired with
  | whole hstatements => exact Pairing.not_mem_operands hstatements

/-- Once past a number nothing makes an operand of it. -/
theorem ReadsTo.not_mem_operands {t : Token} {before : List Char}
    (h : ReadsTo statements r last start cs) (hr : (Pairing.without t).Readers r r)
    (hstart : start = .of before) (hpast : t.start.Precedes start) :
    Operand.number t ∉ statements.flatMap Statement.operands := by
  induction h generalizing before with
  | ended hskip hfeed => exact not_mem_of_whole hr hfeed
  | @token r r₁ last start p cs left terminal m hskip hscan hfeed _ ih =>
    subst hstart
    obtain ⟨passed, rest, -, hpassed, -⟩ := skip_lays before cs
    obtain ⟨rfl, -⟩ := Prod.mk.inj (hskip.symm.trans hpassed)
    have hlater := hpast.append passed
    have hr₁ := hr.feed (Pairing.without_tokens t _) (Pairing.without_numbers hlater.ne.symm) hfeed
    have hstop := Position.after_of (before ++ passed) m.lexeme
    refine ih hr₁ hstop ?_
    rw [hstop]
    exact hlater.append m.lexeme

/-- The word `q` and a number are read in place of a number that would be an operand. -/
theorem ReadsTo.word {done : List Statement} {site : OperandSite} {t : Token} {last₁ : Option Token}
    {start₁ : Position} {blanks space post : List Char}
    (h : ReadsTo statements ⟨done, site.written (.number t)⟩ last₁ start₁ post)
    (hr : Source.reworded.Readers r r) (hword : TakesWord r done site)
    (ht : t.terminal = .number) (hdigits : IsDigits t.text.toList)
    (hscan : scan r.stage.follow (t.text.toList ++ post) =
      some (.number, ⟨t.text.toList, post⟩))
    (hblanks : ∀ c ∈ blanks, IsBlank c) (hspace : ∀ c ∈ space, IsBlank c) (hne : space ≠ [])
    (last : Option Token) (start : Position) :
    ∃ statements', ReadsTo statements' r last start
        (blanks ++ 'q' :: (space ++ (t.text.toList ++ post))) ∧
      List.Forall₂ Source.reworded.Statements statements statements' := by
  -- the word
  have hskip : skip false start (blanks ++ 'q' :: (space ++ (t.text.toList ++ post))) =
      (start.after blanks, 'q' :: (space ++ (t.text.toList ++ post))) := by
    rw [skip_blanks hblanks, skip_cons]
    rfl
  have hq : scan r.stage.follow ('q' :: (space ++ (t.text.toList ++ post))) =
      some (.q, ⟨['q'], space ++ (t.text.toList ++ post)⟩) := by
    obtain ⟨c, space, rfl⟩ := List.exists_cons_of_ne_nil hne
    exact scan_word hword.name hword.q (hspace c List.mem_cons_self) _
  have hfeed := hword.feed (Match.token ⟨['q'], space ++ (t.text.toList ++ post)⟩ .q
    (start.after blanks)) rfl
  -- the number
  have hskip' (p : Position) : skip false p (space ++ (t.text.toList ++ post)) =
      (p.after space, t.text.toList ++ post) := by
    rw [skip_blanks hspace, skip_of_scan hscan]
  have hscan' := scan_number hscan site
  have hfeed' (p : Position) :
      Reader.feed ⟨done, .qubitWord site⟩ (Match.token ⟨t.text.toList, post⟩ .number p) =
        .reading ⟨done, .qubit site (Match.token ⟨t.text.toList, post⟩ .number p)⟩ := rfl
  have hsame (p : Position) : t.SameText (Match.token ⟨t.text.toList, post⟩ .number p) :=
    ⟨ht.symm, String.ofList_toList⟩
  have hself : Source.reworded.Readers ⟨done, .qubitWord site⟩ ⟨done, .qubitWord site⟩ :=
    hr.feed (reworded_tokens ⟨rfl, rfl⟩) (reworded_numbers ⟨rfl, rfl⟩) hfeed
  obtain ⟨hdone, hstage⟩ := hself
  cases hstage with
  | qubitWord hsite =>
    obtain ⟨statements', hreads, hstatements⟩ :=
      h.written hdone hsite (.word (hsame _) ht hdigits) _ _
    refine ⟨statements', .token hskip hq hfeed ?_, hstatements⟩
    exact .token (hskip' _) hscan' (hfeed' _) hreads

/-- A number that becomes an operand and has just been passed is the token just read, and stands
where the word `q` could stand. -/
theorem ReadsTo.number_of_mem {t u : Token} {before : List Char}
    (h : ReadsTo statements r' last start cs) (hstart : start = .of before)
    (hpast : t.start.Precedes start)
    (hmem : Operand.number t ∈ statements.flatMap Statement.operands)
    (hr : (Pairing.without t).Readers r r) (hfeed : r.feed u = .reading r') :
    u = t ∧ t.terminal = .number ∧
      ∃ site : OperandSite, r'.stage = site.written (.number t) ∧
        TakesWord r r'.statements site := by
  have hgone : ¬(Pairing.without t).Readers r' r' := fun hr' =>
    h.not_mem_operands hr' hstart hpast hmem
  have hnumbers : ¬(Pairing.without t).Numbers u u := fun hnumbers =>
    hgone (hr.feed (Pairing.without_tokens t u) hnumbers hfeed)
  have hterminal : u.terminal = .number := by
    by_contra hterminal
    exact hnumbers fun h => absurd h hterminal
  have hu : u = t := by
    by_contra hu
    exact hnumbers fun _ => ⟨by simpa using hu, rfl⟩
  subst hu
  refine ⟨rfl, hterminal, ?_⟩
  rcases feed_number hterminal hfeed with hword | hkeeps
  · exact hword
  · exact absurd (hkeeps _ hr (Pairing.without_tokens u u)) hgone

theorem apart_gap {cs gap : List Char} (hne : cs ≠ []) (hgap : ∀ c ∈ gap, IsBlank c)
    (hlast : ∀ c ∈ (cs ++ gap).getLast?, isNameChar c = false) (rest : List Char) :
    Apart cs (gap ++ 'q' :: rest) := by
  cases gap with
  | nil =>
    rw [List.append_nil] at hlast
    exact apart_word hne hlast rest
  | cons c gap => exact apart_blank (hgap c List.mem_cons_self) cs _

/-- A reader that has not come to `t`: whatever a pairing does with `t`, it keeps what was read. -/
def Reader.Before (r : Reader) (t : Token) : Prop :=
  ∀ P : Pairing, (∀ u, P.Tokens u u) → (∀ u : Token, u.start ≠ t.start → P.Numbers u u) →
    P.Readers r r

theorem Reader.Before.without {t : Token} (h : r.Before t) : (Pairing.without t).Readers r r :=
  h _ (Pairing.without_tokens t) fun _ => Pairing.without_numbers

theorem Reader.Before.reworded {t : Token} (h : r.Before t) : Source.reworded.Readers r r :=
  h _ (fun _ => reworded_tokens ⟨rfl, rfl⟩) fun _ _ => reworded_numbers ⟨rfl, rfl⟩

theorem Reader.Before.feed {t u : Token} (h : r.Before t) (hu : u.start ≠ t.start)
    (hfeed : r.feed u = .reading r') : r'.Before t := fun P htokens hnumbers =>
  (h P htokens hnumbers).feed (htokens u) (hnumbers u hu) hfeed

theorem append_split {xs ys zs ws : List Char} (h : xs ++ ys = zs ++ ws) :
    (∃ more, zs = xs ++ more ∧ ys = more ++ ws) ∨ ∃ beyond, beyond ≠ [] ∧ xs = zs ++ beyond := by
  rcases List.append_eq_append_iff.mp h with hmore | ⟨beyond, rfl, hws⟩
  · exact .inl hmore
  · by_cases hbeyond : beyond = []
    · subst hbeyond
      exact .inl ⟨[], by simp, by simpa using hws.symm⟩
    · exact .inr ⟨beyond, hbeyond, rfl⟩

/-- A token is found as before when what comes behind it changes at some distance. -/
theorem token_apart {allowed : List Terminal} {p p' : Position} {terminal : Terminal} {m : Match}
    {passed ahead tail tail' : List Char} (hrest : m.rest = ahead ++ tail)
    (hskip : skip false p (passed ++ (m.lexeme ++ m.rest)) = (p', m.lexeme ++ m.rest))
    (hscan : scan allowed (m.lexeme ++ m.rest) = some (terminal, m))
    (h : Apart (m.lexeme ++ ahead) tail') :
    skip false p (passed ++ m.lexeme ++ ahead ++ tail') = (p', m.lexeme ++ (ahead ++ tail')) ∧
      scan allowed (m.lexeme ++ (ahead ++ tail')) =
        some (terminal, ⟨m.lexeme, ahead ++ tail'⟩) := by
  obtain ⟨lexeme, rest⟩ := m
  subst hrest
  obtain ⟨c, lexeme, rfl⟩ := List.exists_cons_of_ne_nil (scan_sound hscan).2.ne_nil
  constructor
  · have hskipped := skip_continued hskip (lexeme ++ (ahead ++ tail'))
    simpa using hskipped
  · exact scan_apart h hscan

variable {t : Token} {gap space post : List Char}

/-- What a token says about its text and its place settles how it was found. -/
theorem found_of_token {m : Match} {terminal : Terminal} {before passed ahead : List Char}
    (ht : m.token terminal (.of (before ++ passed)) = t) (hplace : t.start = .of (before ++ ahead))
    (hcs : passed ++ (m.lexeme ++ m.rest) = ahead ++ (t.text.toList ++ post)) :
    terminal = t.terminal ∧ passed = ahead ∧ m = ⟨t.text.toList, post⟩ := by
  subst ht
  have hwhole : before ++ passed ++ (m.lexeme ++ m.rest) =
      before ++ ahead ++ ((String.ofList m.lexeme).toList ++ post) := by
    rw [List.append_assoc, hcs, List.append_assoc]
    rfl
  obtain rfl : passed = ahead := List.append_cancel_left (Position.of_inj hwhole hplace)
  obtain ⟨lexeme, rest⟩ := m
  have htext : (String.ofList lexeme).toList = lexeme := String.toList_ofList
  have hrest := List.append_cancel_left hwhole
  rw [htext] at hrest
  obtain rfl : rest = post := List.append_cancel_left hrest
  exact ⟨rfl, rfl, congrArg (Match.mk · rest) htext.symm⟩

/-- A text with the word `q` before a number that is an operand is read as without it. -/
theorem ReadsTo.add_word {before ahead : List Char} (h : ReadsTo statements r last start cs)
    (hstart : start = .of before) (hcs : cs = ahead ++ (t.text.toList ++ post))
    (hplace : t.start = .of (before ++ ahead)) (hr : r.Before t)
    (hmem : Operand.number t ∈ statements.flatMap Statement.operands)
    (hdigits : IsDigits t.text.toList) (hgap : ∀ c ∈ gap, IsBlank c)
    (hlast : ∀ c ∈ (before ++ ahead ++ gap).getLast?, isNameChar c = false)
    (hspace : ∀ c ∈ space, IsBlank c) (hne : space ≠ []) :
    ∃ statements', ReadsTo statements' r last start
        (ahead ++ (gap ++ 'q' :: (space ++ (t.text.toList ++ post)))) ∧
      List.Forall₂ Source.reworded.Statements statements statements' := by
  induction h generalizing before ahead with
  | ended hskip hfeed => exact absurd hmem (not_mem_of_whole hr.without hfeed)
  | @token r r₁ last start p cs left terminal m hskip hscan hfeed h ih =>
    subst hstart
    obtain ⟨passed, rest, rfl, hskip', -⟩ := skip_lays before cs
    obtain ⟨rfl, rfl⟩ := Prod.mk.inj (hskip.symm.trans hskip')
    obtain ⟨rfl, hmatches⟩ := scan_sound hscan
    have hstop := Position.after_of (before ++ passed) m.lexeme
    have htext : passed ++ m.lexeme ++ m.rest = ahead ++ (t.text.toList ++ post) := by
      rw [List.append_assoc, hcs]
    rcases append_split htext with ⟨ahead', rfl, hrest⟩ | ⟨beyond, hbeyond, hpast⟩
    · -- the token stands before the number
      have hne' : m.lexeme ++ ahead' ≠ [] := by simp [hmatches.ne_nil]
      have hplace' : t.start = .of (before ++ passed ++ (m.lexeme ++ ahead')) := by
        rw [hplace]
        simp
      have hstart : Position.of (before ++ passed) ≠ t.start := by
        rw [hplace']
        exact (Position.precedes_of_append _ hne').ne
      have hlast' : ∀ c ∈ (m.lexeme ++ ahead' ++ gap).getLast?, isNameChar c = false := by
        have hsplit : before ++ (passed ++ m.lexeme ++ ahead') ++ gap =
            before ++ passed ++ (m.lexeme ++ ahead' ++ gap) := by simp
        rwa [hsplit, List.getLast?_append_of_ne_nil _ (by simp [hmatches.ne_nil])] at hlast
      obtain ⟨statements', hreads, hstatements⟩ :=
        ih hstop hrest (by simpa using hplace') (hr.feed hstart hfeed) (by simpa using hlast)
      obtain ⟨hskip', hscan'⟩ := token_apart hrest hskip hscan (apart_gap hne' hgap hlast' _)
      exact ⟨statements', .token hskip' hscan' hfeed hreads, hstatements⟩
    · -- the token is the number
      have hlater : t.start.Precedes (.of (before ++ passed ++ m.lexeme)) := by
        rw [hplace, List.append_assoc, hpast, ← List.append_assoc]
        exact Position.precedes_of_append _ hbeyond
      obtain ⟨ht, hnumber, site, hstage, hword⟩ :=
        h.number_of_mem hstop (hstop ▸ hlater) hmem hr.without hfeed
      obtain ⟨hterminal, rfl, rfl⟩ := found_of_token ht hplace hcs
      replace hterminal := hterminal.trans hnumber
      subst hterminal
      have hblanks : ∀ c ∈ passed ++ gap, IsBlank c :=
        List.forall_mem_append.mpr ⟨passed_blank_of_digits hdigits hskip, hgap⟩
      obtain ⟨done, stage⟩ := r₁
      subst hstage
      rw [← List.append_assoc]
      exact h.word hr.reworded hword hnumber hdigits hscan hblanks hspace hne last _

end Reading

section Words

/-- The word `q` is written before an integer that is an operand, with blanks behind it. Before it
there may be blanks as well, and there have to be some after a name, which would run into it. -/
inductive WordAdded : String → String → Prop
  | before {text : String} {statements : List Statement} {t : Token}
      {pre gap space post : List Char} (hparse : parse text = .ok statements)
      (hmem : Operand.number t ∈ statements.flatMap Statement.operands)
      (hdigits : IsDigits t.text.toList) (htext : text.toList = pre ++ (t.text.toList ++ post))
      (hplace : t.start = .of pre) (hgap : ∀ c ∈ gap, IsBlank c)
      (hlast : ∀ c ∈ (pre ++ gap).getLast?, isNameChar c = false)
      (hspace : ∀ c ∈ space, IsBlank c) (hne : space ≠ []) :
      WordAdded text (.ofList (pre ++ (gap ++ 'q' :: (space ++ (t.text.toList ++ post)))))

theorem Reader.before_start (t : Token) : Reader.Before ⟨[], .start⟩ t := fun _ _ _ =>
  ⟨.nil, .start⟩

/-- With the word and without it the same statements are read, but for the word. -/
theorem WordAdded.parse {text text' : String} (h : WordAdded text text') :
    ∃ statements statements', Source.parse text = .ok statements ∧
      Source.parse text' = .ok statements' ∧
      List.Forall₂ reworded.Statements statements statements' := by
  cases h with
  | @before statements t _ _ _ _ hparse hmem hdigits htext hplace hgap hlast hspace hne =>
    have hreads := readFrom_eq_ok_iff.mp hparse
    have horigin : Position.origin = .of [] := rfl
    have hr := Reader.before_start t
    obtain ⟨statements', hreads', hstatements⟩ :=
      hreads.add_word horigin htext hplace hr hmem hdigits hgap hlast hspace hne
    refine ⟨statements, statements', hparse, ?_, hstatements⟩
    rw [Source.parse, String.toList_ofList]
    exact readFrom_eq_ok_iff.mpr hreads'

end Words

end GateScript.Source
