import GateScript.Proofs.Source.Completion
import GateScript.Proofs.Source.QubitWord
import GateScript.Proofs.Source.Yield

/-!
The first error of a text.

A text that is no program is refused at the first token that cannot be right. What was read before
it can be completed, since the reader takes no token that it could not go on from; and with the token
no program begins, since what the reader takes depends on the terminals only.
-/
namespace GateScript.Source

section Unmatched

variable {allowed : List Terminal} {t : Terminal} {cs lexeme : List Char}

theorem scan_eq_none_iff :
    scan allowed cs = none ↔ ∀ u ∈ Terminal.tried, allowed.contains u → u.scan cs = none := by
  unfold scan
  rw [List.findSome?_eq_none_iff]
  constructor
  · intro h u hu hallowed
    have hnone := h u hu
    rwa [if_pos hallowed, Option.map_eq_none_iff] at hnone
  · intro h u hu
    split
    · rw [h u hu ‹_›]
      rfl
    · rfl

/-- What a terminal matches is matched by one that is tried, since the words `q` and `b` are
names. -/
theorem Terminal.Matches.tried (h : t.Matches lexeme) :
    ∃ u ∈ Terminal.tried, u.Matches lexeme ∧ (u = t ∨ u = .name ∧ (t = .q ∨ t = .b)) := by
  by_cases ht : t ∈ Terminal.tried
  · exact ⟨t, ht, h, .inl rfl⟩
  · cases h with
    | q => exact ⟨.name, by decide, .name (by decide) (by simp), .inr ⟨rfl, .inl rfl⟩⟩
    | b => exact ⟨.name, by decide, .name (by decide) (by simp), .inr ⟨rfl, .inr rfl⟩⟩
    | literal h => exact absurd (by cases t <;> cases h <;> decide) ht
    | _ => exact absurd (by decide) ht

/-- Where the words `q` and `b` can stand, so can a name. -/
theorem follow_name (s : Stage) (h : s.follow.contains .q ∨ s.follow.contains .b) :
    s.follow.contains .name := by
  cases s with
  | itemStart site => cases site <;> rfl
  | firstOperand site =>
    cases site <;> simp [Stage.follow, OperandsSite.follow, OperandsSite.closing] at h
  | name | target | qubitWord | qubit | laterOperand | qubitRegister | bitRegister =>
    simp [Stage.follow] at h
  | _ => rfl

theorem not_prefix_of_scan (hscan : scan allowed cs = none) (hmatches : t.Matches lexeme)
    (ht : allowed.contains t)
    (hname : allowed.contains .q ∨ allowed.contains .b → allowed.contains .name) :
    ¬lexeme <+: cs := by
  rintro ⟨rest, rfl⟩
  obtain ⟨u, hu, hmatches', hut⟩ := hmatches.tried
  have hallowed : allowed.contains u := by
    rcases hut with rfl | ⟨rfl, rfl | rfl⟩
    · exact ht
    · exact hname (.inl ht)
    · exact hname (.inr ht)
  have hnone := scan_eq_none_iff.mp hscan u hu hallowed
  exact Terminal.scan_eq_none_iff.mp hnone lexeme rest rfl hmatches'

theorem not_follow_of_unmatched {s : Stage} {m : Match} (hscan : scan s.follow cs = none)
    (hfound : scan allowed cs = some (t, m)) : ¬s.follow.contains t := by
  intro hfollow
  obtain ⟨hcs, hmatches⟩ := scan_sound hfound
  exact not_prefix_of_scan hscan hmatches hfollow (follow_name s) ⟨m.rest, hcs.symm⟩

end Unmatched

section Passing

variable {before passed lexeme rest rest' cs left : List Char} {p : Position} {tokens : List Token}

theorem lays_of_skip (hskip : skip false (.of before) cs = (p, left)) :
    ∃ passed, cs = passed ++ left ∧ p = .of (before ++ passed) ∧
      ∀ tokens, Lays (before ++ passed) tokens left → Lays before tokens cs := by
  obtain ⟨passed, rest, hcs, hpassed, hlays⟩ := skip_lays before cs
  obtain ⟨rfl, rfl⟩ := Prod.mk.inj (hskip.symm.trans hpassed)
  exact ⟨passed, hcs, rfl, hlays⟩

/-- What is passed over before some text is passed over without it. -/
theorem skip_passed {running : Bool} {start : Position}
    (h : skip running start (passed ++ rest) = (p, rest)) : skip running start passed = (p, []) := by
  induction passed generalizing running start with
  | nil =>
    cases rest with
    | nil => exact h
    | cons c rest =>
      rw [List.nil_append, skip_cons] at h
      split at h
      · cases h
        rfl
      · have hlength := length_skip_le (running || c == '#') (start.next c) rest
        rw [h] at hlength
        simp at hlength
  | cons c passed ih =>
    rw [List.cons_append, skip_cons] at h
    rw [skip_cons]
    split at h
    · have hlength := congrArg (fun found => found.2.length) h
      simp at hlength
      omega
    · rw [if_neg ‹_›]
      exact ih h

theorem lays_passed (hskip : skip false (.of before) (passed ++ rest) = (p, rest)) :
    Lays before [] passed := by
  obtain ⟨passed', -, -, hlays⟩ := lays_of_skip (skip_passed hskip)
  exact hlays [] .nil

/-- Tokens are laid out after what is passed over, whatever comes after the first of them. -/
theorem Lays.after_passed (hskip : skip false (.of before) (passed ++ (lexeme ++ rest)) =
      (p, lexeme ++ rest)) (hne : lexeme ≠ [])
    (h : Lays (before ++ passed) tokens (lexeme ++ rest')) :
    Lays before tokens (passed ++ (lexeme ++ rest')) := by
  obtain ⟨c, lexeme, rfl⟩ := List.exists_cons_of_ne_nil hne
  have hskip' := skip_continued hskip (lexeme ++ rest')
  obtain ⟨passed', hcs, -, hlays⟩ := lays_of_skip hskip'
  obtain rfl := List.append_cancel_right hcs
  exact hlays tokens h

end Passing

section Leading

variable {r r' r₁ r₁' : Reader} {ts ts' us : List Token}

/-- The tokens lead from one reader to the other. -/
inductive Leads : Reader → List Token → Reader → Prop
  | nil {r : Reader} : Leads r [] r
  | cons {r r₁ r' : Reader} {t : Token} {ts : List Token} (hfeed : r.feed t = .reading r₁)
      (h : Leads r₁ ts r') : Leads r (t :: ts) r'

theorem Leads.of_append (h : Leads r (ts ++ us) r') : ∃ r₁, Leads r ts r₁ ∧ Leads r₁ us r' := by
  induction ts generalizing r with
  | nil => exact ⟨r, .nil, h⟩
  | cons t ts ih =>
    cases h with
    | cons hfeed h =>
      obtain ⟨r₁, hleads, hrest⟩ := ih h
      exact ⟨r₁, .cons hfeed hleads, hrest⟩

/-- Tokens go together if they have the same terminal, and operands do in any case. -/
def byTerminal : Pairing where
  token t t' := t'.terminal = t.terminal
  operand _ _ := True
  terminal := id

theorem feed_byTerminal {t t' : Token} (ht : t'.terminal = t.terminal)
    (hr : byTerminal.Readers r r') : byTerminal.Progresses (r.feed t) (r'.feed t') :=
  Pairing.feed_paired ⟨ht, trivial, trivial⟩ (fun _ => trivial) hr

theorem Leads.paired (h : Leads r ts r₁) (h' : Leads r' ts' r₁')
    (hts : ts'.map Token.terminal = ts.map Token.terminal) (hr : byTerminal.Readers r r') :
    byTerminal.Readers r₁ r₁' := by
  induction h generalizing r' ts' with
  | nil =>
    obtain rfl := List.map_eq_nil_iff.mp hts
    cases h'
    exact hr
  | @cons r r₂ r₁ t ts hfeed _ ih =>
    cases h' with
    | nil => cases hts
    | cons hfeed' h' =>
      obtain ⟨ht, hts⟩ := List.cons.inj hts
      have hpaired := feed_byTerminal ht hr
      rw [hfeed, hfeed'] at hpaired
      cases hpaired with
      | reading hr₂ => exact ih h' hts hr₂

end Leading

section Upto

variable {tokens : List Token} {result : Except ParseError (List Statement)} {r r₁ r' : Reader}
  {last last' : Option Token} {before upto rest cs : List Char} {start : Position}

/-- Reading `upto` after `before` takes the tokens, the last of which ends there. With a blank after
it, any text can follow. -/
structure ReadsUpto (tokens : List Token) (r : Reader) (last : Option Token)
    (before upto : List Char) (r' : Reader) (last' : Option Token) : Prop where
  leads : Leads r tokens r'
  getLast : last' = tokens.getLast?.or last
  lays : ∀ passed, Lays (before ++ upto) [] passed → Lays before tokens (upto ++ passed)
  yields : ∀ {tail more result}, Yields more result r' last' (.of (before ++ upto)) (' ' :: tail) →
    Yields (tokens ++ more) result r last (.of before) (upto ++ ' ' :: tail)

theorem readsUpto_nil (r : Reader) (last : Option Token) (before : List Char) :
    ReadsUpto [] r last before [] r last where
  leads := .nil
  getLast := rfl
  lays _ h := by rwa [List.append_nil] at h
  yields h := by rwa [List.append_nil] at h

theorem ReadsUpto.token {passed : List Char} {terminal : Terminal} {m : Match}
    (hskip : skip false (.of before) (passed ++ (m.lexeme ++ m.rest)) =
      (.of (before ++ passed), m.lexeme ++ m.rest))
    (hscan : scan r.stage.follow (m.lexeme ++ m.rest) = some (terminal, m))
    (hfeed : r.feed (m.token terminal (.of (before ++ passed))) = .reading r₁)
    (hrest : m.rest = upto ++ rest)
    (h : ReadsUpto tokens r₁ (some (m.token terminal (.of (before ++ passed))))
      (before ++ passed ++ m.lexeme) upto r' last') :
    ReadsUpto (m.token terminal (.of (before ++ passed)) :: tokens) r last before
      (passed ++ (m.lexeme ++ upto)) r' last' where
  leads := .cons hfeed h.leads
  getLast := by
    rw [h.getLast, List.getLast?_cons, Option.some_or]
    cases tokens.getLast? <;> rfl
  lays := by
    intro more hmore
    have hmatches := (scan_sound hscan).2
    have hlays := h.lays more (by simpa using hmore)
    have hall := (hlays.found hmatches).after_passed hskip hmatches.ne_nil
    simpa using hall
  yields := by
    intro tail more result hmore
    obtain ⟨hskip', hscan'⟩ := token_apart hrest hskip hscan (apart_blank (.inl rfl) _ tail)
    have hstop := Position.after_of (before ++ passed) m.lexeme
    have hnext := h.yields (by simpa using hmore)
    rw [← hstop] at hnext
    have hcs : passed ++ (m.lexeme ++ upto) ++ ' ' :: tail =
        passed ++ m.lexeme ++ upto ++ ' ' :: tail := by simp
    rw [hcs]
    exact .token (m := ⟨m.lexeme, upto ++ ' ' :: tail⟩) hskip' hscan' hfeed hnext

theorem Yields.readsUpto_nil (h : Yields [] result r last (.of before) cs) :
    ∃ r' last' upto rest, cs = upto ++ rest ∧ ReadsUpto [] r last before upto r' last' ∧
      Yields [] result r' last' (.of (before ++ upto)) rest := by
  refine ⟨r, last, [], cs, rfl, Source.readsUpto_nil r last before, ?_⟩
  rwa [List.append_nil]

/-- Reading takes the tokens, and then comes to its end or to an error at once. -/
theorem Yields.readsUpto (h : Yields tokens result r last start cs) (hstart : start = .of before) :
    ∃ r' last' upto rest, cs = upto ++ rest ∧ ReadsUpto tokens r last before upto r' last' ∧
      Yields [] result r' last' (.of (before ++ upto)) rest := by
  induction h generalizing before with
  | ended hskip =>
    subst hstart
    exact (Yields.ended hskip).readsUpto_nil
  | unmatched hskip hscan =>
    subst hstart
    exact (Yields.unmatched hskip hscan).readsUpto_nil
  | refused hskip hscan hfeed =>
    subst hstart
    exact (Yields.refused hskip hscan hfeed).readsUpto_nil
  | @token tokens result r r₁ last start p cs left terminal m hskip hscan hfeed _ ih =>
    subst hstart
    obtain ⟨passed, rfl, rfl, -⟩ := lays_of_skip hskip
    obtain ⟨rfl, -⟩ := scan_sound hscan
    obtain ⟨r', last', upto, rest, hrest, hupto, hend⟩ :=
      ih (Position.after_of (before ++ passed) m.lexeme)
    refine ⟨r', last', _, rest, ?_, .token hskip hscan hfeed hrest hupto, ?_⟩
    · rw [hrest]
      simp
    · simpa using hend

/-- What was read of a text can be made a program. -/
theorem tokensOf_completed (text : String) :
    ∃ completed statements, parse completed = .ok statements ∧
      tokensOf text <+: tokensOf completed := by
  have hstart : Position.origin = .of [] := rfl
  obtain ⟨r, last, upto, rest, -, hupto, -⟩ := (yields_parse text).readsUpto hstart
  have hcompletes := accepts_blank (completes_completion r.statements r.stage)
  obtain ⟨statements, hread, -⟩ := hcompletes last (.of ([] ++ upto))
  have hyields := hupto.yields (yields_iff.mpr ⟨rfl, hread⟩)
  rw [← String.toList_ofList (l := upto ++ _)] at hyields
  obtain ⟨htokens, hparse⟩ := hyields.eq
  exact ⟨_, statements, hparse, _, htokens.symm⟩

end Upto

section Errors

variable {e : ParseError} {r : Reader} {last : Option Token} {before rest : List Char}
  {taken : List Token}

/-- Where an error stands: after the text `before` and the tokens taken from it, and before the rest
of the text. -/
def ParseError.Stands (taken : List Token) (before rest : List Char) : ParseError → Prop
  | .token t _ => t.start = .of before ∧ t.stop = .of (before ++ t.text.toList) ∧
    t.terminal.Matches t.text.toList ∧ t.text.toList <+: rest
  | .character c p _ => p = .of before ∧ rest.head? = some c ∧
    ∀ (t : Terminal) (lexeme : List Char), t.Matches lexeme → ¬lexeme <+: rest
  | .ended last _ => rest = [] ∧ last = taken.getLast?

/-- No program goes on like this, whatever the names and the numbers are: not with the token after
those taken, or not with nothing after them. -/
def ParseError.Unfit (taken : List Token) : ParseError → Prop
  | .token t _ => ∀ text statements, parse text = .ok statements →
    ¬(taken ++ [t]).map Token.terminal <+: (tokensOf text).map Token.terminal
  | .character _ _ _ => True
  | .ended _ _ => ∀ text statements, parse text = .ok statements →
    (tokensOf text).map Token.terminal ≠ taken.map Token.terminal

/-- The reader does not take what the error is about. -/
def ParseError.Stops (r : Reader) : ParseError → Prop
  | .token t _ => ∀ r', r.feed t ≠ .reading r'
  | .character _ _ _ => True
  | .ended last _ => ∀ statements, r.feed (endToken last) ≠ .whole statements

theorem Progress.ended_of_atEnd {progress : Progress} (h : progress.atEnd last = .error e) :
    (∃ expected, e = .ended last expected) ∧ ∀ statements, progress ≠ .whole statements := by
  cases progress <;> cases h <;> exact ⟨⟨_, rfl⟩, nofun⟩

theorem stands_token {allowed expected : List Terminal} {terminal : Terminal} {m : Match}
    (hscan : scan allowed rest = some (terminal, m)) :
    (ParseError.token (m.token terminal (.of before)) expected).Stands taken before rest := by
  obtain ⟨hrest, hmatches⟩ := scan_sound hscan
  have htext : (m.token terminal (.of before)).text.toList = m.lexeme := String.toList_ofList
  refine ⟨rfl, ?_, ?_, ?_⟩
  · rw [htext]
    exact Position.after_of before m.lexeme
  · rw [htext]
    exact hmatches
  · rw [htext]
    exact ⟨_, hrest.symm⟩

theorem stands_unmatched {allowed : List Terminal} {c : Char} :
    (unmatched allowed (.of before) c rest).Stands taken before (c :: rest) := by
  unfold unmatched
  cases hscan : scan Terminal.every (c :: rest) with
  | none =>
    refine ⟨rfl, rfl, fun t lexeme hmatches => ?_⟩
    have hevery : Terminal.every.contains t := by
      obtain ⟨u, hu, -, rfl | ⟨rfl, rfl | rfl⟩⟩ := hmatches.tried
      · exact List.contains_iff_mem.mpr (List.mem_cons_of_mem _ (List.mem_cons_of_mem _ hu))
      · rfl
      · rfl
    exact not_prefix_of_scan hscan hmatches hevery fun _ => rfl
  | some found => exact stands_token hscan

theorem stops_unmatched {c : Char} {p : Position}
    (hscan : scan r.stage.follow (c :: rest) = none) :
    (unmatched r.stage.follow p c rest).Stops r := by
  unfold unmatched
  cases hevery : scan Terminal.every (c :: rest) with
  | none => trivial
  | some found =>
    intro r' hfeed
    exact not_follow_of_unmatched hscan hevery (follow_of_feed hfeed)

/-- Where no token is taken before the error, there are blanks and comments only. -/
theorem Yields.error_stands (h : Yields [] (.error e) r last (.of before) rest)
    (hlast : last = taken.getLast?) :
    ∃ passed left, rest = passed ++ left ∧ Lays before [] passed ∧
      e.Stands taken (before ++ passed) left ∧ e.Stops r := by
  generalize hresult : (Except.error e : Except ParseError (List Statement)) = result at h
  generalize hstart : Position.of before = start at h
  cases h with
  | ended hskip =>
    subst hstart
    obtain ⟨passed, rfl, -, -⟩ := lays_of_skip hskip
    obtain ⟨⟨expected, rfl⟩, hnot⟩ := Progress.ended_of_atEnd hresult.symm
    exact ⟨passed, [], rfl, lays_passed hskip, ⟨rfl, hlast⟩, hnot⟩
  | unmatched hskip hscan =>
    subst hstart
    obtain ⟨passed, rfl, rfl, -⟩ := lays_of_skip hskip
    cases hresult
    exact ⟨passed, _, rfl, lays_passed hskip, stands_unmatched, stops_unmatched hscan⟩
  | @refused _ _ _ _ _ _ terminal m expected hskip hscan hfeed =>
    subst hstart
    obtain ⟨passed, rfl, rfl, -⟩ := lays_of_skip hskip
    cases hresult
    refine ⟨passed, _, rfl, lays_passed hskip, stands_token hscan, fun r' hfeed' => ?_⟩
    rw [hfeed] at hfeed'
    cases hfeed'

/-- The tokens before an error lay out the text before it, and lead to a reader that stops there. -/
theorem error_stands {text : String} (h : parse text = .error e) :
    ∃ before rest, text.toList = before ++ rest ∧ Lays [] (tokensOf text) before ∧
      e.Stands (tokensOf text) before rest ∧
      ∃ r, Leads ⟨[], .start⟩ (tokensOf text) r ∧ e.Stops r := by
  have hyields := yields_parse text
  rw [h] at hyields
  have hstart : Position.origin = .of [] := rfl
  obtain ⟨r, last, upto, rest, htext, hupto, hend⟩ := hyields.readsUpto hstart
  have hlast : last = (tokensOf text).getLast? := by rw [hupto.getLast, Option.or_none]
  obtain ⟨passed, left, rfl, hpassed, hstands, hstops⟩ := hend.error_stands hlast
  refine ⟨upto ++ passed, left, ?_, hupto.lays passed hpassed, hstands, r, hupto.leads, hstops⟩
  rw [htext, List.append_assoc]

theorem Yields.feed_whole {statements : List Statement} {start : Position}
    (h : Yields [] (.ok statements) r last start rest) :
    r.feed (endToken last) = .whole statements := by
  generalize hresult : (Except.ok statements : Except ParseError (List Statement)) = result at h
  cases h with
  | ended =>
    cases hfeed : r.feed (endToken last) with
    | whole statements' =>
      rw [hfeed] at hresult
      cases hresult
      rfl
    | _ =>
      rw [hfeed] at hresult
      cases hresult
  | _ => cases hresult

/-- The tokens of a program lead to a reader that makes it whole. -/
theorem leads_of_parse {text : String} {statements : List Statement}
    (h : parse text = .ok statements) :
    ∃ r last, Leads ⟨[], .start⟩ (tokensOf text) r ∧ r.feed (endToken last) = .whole statements := by
  have hyields := yields_parse text
  rw [h] at hyields
  have hstart : Position.origin = .of [] := rfl
  obtain ⟨r, last, upto, rest, -, hupto, hend⟩ := hyields.readsUpto hstart
  exact ⟨r, last, hupto.leads, hend.feed_whole⟩

theorem byTerminal_start : byTerminal.Readers ⟨[], .start⟩ ⟨[], .start⟩ := ⟨.nil, .start⟩

/-- What one reader does not take comes next in no program that has led to another by tokens with
the same terminals. -/
theorem ParseError.Stops.unfit (hstops : e.Stops r) (h : Leads ⟨[], .start⟩ taken r) :
    e.Unfit taken := by
  cases e with
  | character c p expected => trivial
  | token t expected =>
    rintro text statements hparse ⟨more, hmore⟩
    obtain ⟨r', last', hleads, -⟩ := leads_of_parse hparse
    rw [List.map_append, List.append_assoc] at hmore
    obtain ⟨before, after, htokens, hbefore, hafter⟩ := List.map_eq_append_iff.mp hmore.symm
    rw [htokens] at hleads
    obtain ⟨r₁, hfirst, hsecond⟩ := hleads.of_append
    have hpaired := h.paired hfirst hbefore byTerminal_start
    cases hsecond with
    | nil => cases hafter
    | @cons _ r₂ _ t' after hfeed _ =>
      have hterminal : t'.terminal = t.terminal := (List.cons.inj hafter).1
      have hprogress := feed_byTerminal hterminal hpaired
      rw [hfeed] at hprogress
      generalize hnext : r.feed t = next at hprogress
      cases hprogress with
      | reading => exact hstops _ hnext
  | ended last expected =>
    intro text statements hparse hsame
    obtain ⟨r', last', hleads, hwhole⟩ := leads_of_parse hparse
    have hpaired := h.paired hleads hsame byTerminal_start
    have hprogress := feed_byTerminal (endToken_sameText last last').1 hpaired
    rw [hwhole] at hprogress
    generalize hnext : r.feed (endToken last) = next at hprogress
    cases hprogress with
    | whole => exact hstops _ hnext

end Errors

/-- A text that is no program is refused at the first token that cannot be right. The text before the
error is made of the tokens taken, with blanks and comments between them. These tokens are the first
ones of some program; but those of no program go on with the token of the error, even with other
names and numbers, or end there if the error is the end of the text. -/
theorem error_at_first_unfit {text : String} {e : ParseError} (h : parse text = .error e) :
    (∃ before rest, text.toList = before ++ rest ∧ Lays [] (tokensOf text) before ∧
      e.Stands (tokensOf text) before rest) ∧
    (∃ completed statements, parse completed = .ok statements ∧
      tokensOf text <+: tokensOf completed) ∧
    e.Unfit (tokensOf text) := by
  obtain ⟨before, rest, htext, hlays, hstands, r, hleads, hstops⟩ := error_stands h
  exact ⟨⟨before, rest, htext, hlays, hstands⟩, tokensOf_completed text, hstops.unfit hleads⟩

/-- A list that is not closed, two lines after a declaration with a comment behind it. -/
def unclosedText : String := "x : q ١ # one\r\n\r\n[x, 2 -> H"

def unclosedError : ParseError :=
  .token ⟨.arrow, "->", ⟨3, 7⟩, ⟨3, 9⟩⟩ [.comma, .closeParen, .closeBracket]

theorem error_at_first_unfit_unclosed :
    parse unclosedText = .error unclosedError ∧
      (∃ before rest, unclosedText.toList = before ++ rest ∧
        Lays [] (tokensOf unclosedText) before ∧
        unclosedError.Stands (tokensOf unclosedText) before rest) ∧
      (∃ completed statements, parse completed = .ok statements ∧
        tokensOf unclosedText <+: tokensOf completed) ∧
      unclosedError.Unfit (tokensOf unclosedText) := by
  have hparse : parse unclosedText = .error unclosedError := by decide +kernel
  exact ⟨hparse, error_at_first_unfit hparse⟩

end GateScript.Source
