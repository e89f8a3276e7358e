import GateScript.Proofs.Source.LineEnds
import GateScript.Proofs.Source.Moving
import GateScript.Proofs.Source.Soundness

/-!
One text after the other.

A text that is read to its end is read in the same way with a line feed and another text after it.
The line ends around the line feed are read as one token, and from there on the other text is read
as if it stood alone, only further down and after the statements of the first one.
-/
namespace GateScript.Source

section First

variable {r : Reader} {last : Option Token} {start : Position}

theorem scan_return (allowed : List Terminal) : scan allowed ['\r'] = none := by
  have hterminal : ∀ t ∈ Terminal.tried, t.scan ['\r'] = none := by decide
  unfold scan
  rw [List.findSome?_eq_none_iff]
  intro t ht
  rw [hterminal t ht]
  split <;> rfl

/-- A carriage return at the end of a text is no line end. -/
theorem readFrom_return (statements : List Statement) :
    readFrom r last start ['\r'] ≠ .ok statements := by
  intro h
  rw [readFrom] at h
  split at h
  · rename_i hskip
    cases hskip
  · rename_i hskip
    cases hskip
    split at h
    · rename_i hscan
      rw [scan_return] at hscan
      cases hscan
    · rw [scan_return] at h
      cases h

/-- After its first line ends, a text that is read to its end is not a lone carriage return. -/
theorem drop_ne_return {allowed : List Terminal} {cs : List Char} {t : Terminal} {m : Match}
    {statements : List Statement} (hm : scan allowed cs = some (t, m))
    (hread : readFrom r last start m.rest = .ok statements) :
    cs.drop (newlineRun cs).length ≠ ['\r'] := by
  intro hreturn
  by_cases hrun : newlineRun cs = []
  · have hcs : cs = ['\r'] := by rwa [hrun] at hreturn
    rw [hcs, scan_return] at hm
    cases hm
  · obtain ⟨-, hmatch⟩ := scan_newlines_inv hm hrun
    have hrest : m.rest = ['\r'] := by rw [hmatch]; exact hreturn
    rw [hrest] at hread
    exact readFrom_return statements hread

theorem feed_of_readFrom_nil {statements : List Statement}
    (h : readFrom r last start [] = .ok statements) :
    r.feed (endToken last) = .whole statements := by
  rw [readFrom] at h
  simp only [skip] at h
  split at h
  · cases h
    assumption
  · cases h
  · cases h

/-- Where the text may end after line ends, the reader is between statements. -/
theorem eq_between_of_newline {r' : Reader} {t : Token} {statements : List Statement}
    (ht : t.terminal = .newline) (hfeed : r.feed t = .reading r')
    (hread : readFrom r' last start [] = .ok statements) : r' = ⟨statements, .between⟩ := by
  have hends := (ends_of_whole (feed_of_readFrom_nil hread)).2
  have hsame := feed_start_newline (feed_newlines ht hfeed).1 ht
  rw [hends.newline t ht] at hsame
  exact (Progress.reading.inj hsame).symm

/-- Line ends are read as one token. -/
theorem readFrom_newlines (last : Option Token) {r' : Reader} {p : Position} {cs cs' : List Char}
    (hfollow : r.stage.follow.contains .newline)
    (hfeed : ∀ t : Token, t.terminal = .newline → r.feed t = .reading r')
    (hskip : skip false start cs = (p, cs')) (hrun : newlineRun cs' ≠ []) :
    ∃ t, readFrom r last start cs =
      readFrom r' (some t) (p.after (newlineRun cs')) (cs'.drop (newlineRun cs').length) := by
  have hscan := scan_newlines hfollow hrun
  rw [readFrom_token hskip hscan (hfeed _ rfl)]
  exact ⟨_, rfl⟩

/-- Reads the line feed after a text that ends in line ends or in none. -/
theorem readFrom_lineFeed (last : Option Token) {statements : List Statement}
    {before cs ends : List Char}
    (hfollow : r.stage.follow.contains .newline)
    (hfeed : ∀ t : Token, t.terminal = .newline → r.feed t = .reading ⟨statements, .between⟩)
    (hskip : skip false start cs = (.of before, ends)) (hends : newlineRun ends = ends)
    (rest : List Char) :
    ∃ t, readFrom r last start (cs ++ '\n' :: rest) =
      readFrom ⟨statements, .between⟩ (some t) (.of (before ++ ends ++ '\n' :: newlineRun rest))
        (rest.drop (newlineRun rest).length) := by
  have hskip' : skip false start (cs ++ '\n' :: rest) = (.of before, ends ++ '\n' :: rest) := by
    rw [skip_line, hskip]
  have hrun := newlineRun_end hends rest
  obtain ⟨t, hread⟩ := readFrom_newlines last hfollow hfeed hskip' (by simp [hrun])
  refine ⟨t, ?_⟩
  rw [hread, hrun, Position.after_of, List.append_assoc]
  simp

/-- Reading a text to its end leads to the same with another text on the lines after it, save for
the statements of that text. -/
theorem readFrom_line {cs before : List Char} {statements : List Statement}
    (hstart : start = .of before) (hread : readFrom r last start cs = .ok statements)
    (rest : List Char) :
    ∃ t, readFrom r last start (cs ++ '\n' :: rest) =
      readFrom ⟨statements, .between⟩ (some t) (.of (before ++ cs ++ '\n' :: newlineRun rest))
        (rest.drop (newlineRun rest).length) := by
  fun_induction readFrom r last start cs generalizing before
  case case1 r last start cs p hs statements hfeed =>
    cases hread
    obtain ⟨passed, left, hcs, hskip, -⟩ := skip_lays before cs
    rw [hstart, hskip] at hs
    obtain ⟨rfl, rfl⟩ := Prod.mk.inj hs
    rw [List.append_nil] at hcs
    subst hcs hstart
    have hends := (ends_of_whole hfeed).2
    have hlines := readFrom_lineFeed last hends.follow hends.newline hskip rfl rest
    rwa [List.append_nil] at hlines
  case case4 r last start cs p c left hs terminal m hm t r' hfeed ih =>
    obtain ⟨passed, _, hcs, hskip, -⟩ := skip_lays before cs
    rw [hstart, hskip] at hs
    obtain ⟨rfl, rfl⟩ := Prod.mk.inj hs
    subst hstart
    obtain ⟨hsplit, -⟩ := scan_sound hm
    by_cases hnil : (c :: left).drop (newlineRun (c :: left)).length = []
    · -- the text ends in line ends, which are read together with the line feed
      have hall : newlineRun (c :: left) = c :: left := by
        have happend := List.prefix_iff_eq_append.mp (newlineRun_sound (c :: left)).1
        rwa [hnil, List.append_nil] at happend
      obtain ⟨hterminal, hmatch⟩ := scan_newlines_inv hm (by simp [hall])
      have ht : t.terminal = .newline := hterminal
      have hrest : m.rest = [] := by rw [hmatch]; exact hnil
      rw [hrest] at hread
      obtain ⟨-, hfollow, hlines⟩ := feed_newlines ht hfeed
      rw [eq_between_of_newline ht hfeed hread] at hlines
      rw [hcs, ← List.append_assoc before]
      rw [hcs] at hskip
      exact readFrom_lineFeed last hfollow hlines hskip hall rest
    · have hskip' : skip false (.of before) (cs ++ '\n' :: rest) =
          (.of (before ++ passed), c :: left ++ '\n' :: rest) := by
        rw [skip_line, hskip]
      have hscan : scan r.stage.follow (c :: left ++ '\n' :: rest) =
          some (terminal, m.followedBy ('\n' :: rest)) := by
        rw [scan_line hnil (drop_ne_return hm hread), hm]
        rfl
      have hstop : t.stop = .of (before ++ passed ++ m.lexeme) :=
        Position.after_of (before ++ passed) m.lexeme
      obtain ⟨t', hread'⟩ := ih hstop hread
      have hbefore : before ++ cs = before ++ passed ++ m.lexeme ++ m.rest := by
        rw [hcs, hsplit]
        simp only [List.append_assoc]
      rw [readFrom_token hskip' hscan hfeed, hbefore]
      exact ⟨t', hread'⟩
  case case5 r last start cs p c left hs terminal m hm t statements hfeed =>
    exact absurd (ends_of_whole hfeed).1 (scan_sound hm).2.ne_end
  all_goals cases hread

end First

section Second

/-- A position further down. -/
def Position.down (lines : Nat) (p : Position) : Position := ⟨p.line + lines, p.column⟩

def Token.down (lines : Nat) (t : Token) : Token :=
  ⟨t.terminal, t.text, t.start.down lines, t.stop.down lines⟩

theorem Position.next_down (lines : Nat) (p : Position) (c : Char) :
    (p.down lines).next c = (p.next c).down lines := by
  unfold Position.next Position.down
  split
  · simp only [Position.mk.injEq, and_true]
    omega
  · rfl

theorem Position.after_down (lines : Nat) (p : Position) (cs : List Char) :
    (p.down lines).after cs = (p.after cs).down lines := by
  induction cs generalizing p with
  | nil => rfl
  | cons c cs ih =>
    have hnext := ih (p.next c)
    rw [← Position.next_down] at hnext
    exact hnext

/-- After a line feed the columns begin anew. -/
theorem Position.of_line (before cs : List Char) :
    Position.of (before ++ '\n' :: cs) = (Position.of cs).down (before.count '\n' + 1) := by
  have hline : Position.of (before ++ ['\n']) = (Position.of []).down (before.count '\n' + 1) := by
    simp [Position.of, Position.down, Nat.add_comm]
  have happend : before ++ '\n' :: cs = before ++ ['\n'] ++ cs := by simp
  rw [happend, ← Position.after_of, hline, Position.after_down, Position.after_of]
  rfl

theorem skip_down (lines : Nat) (inComment : Bool) (p : Position) (cs : List Char) :
    skip inComment (p.down lines) cs =
      ((skip inComment p cs).1.down lines, (skip inComment p cs).2) := by
  induction cs generalizing inComment p with
  | nil => rfl
  | cons c cs ih =>
    rw [skip, skip, Position.next_down]
    split
    · split
      · rfl
      · exact ih true (p.next c)
    split
    · exact ih false (p.next c)
    split
    · exact ih true (p.next c)
    · rfl

theorem Match.token_down (m : Match) (t : Terminal) (lines : Nat) (p : Position) :
    m.token t (p.down lines) = (m.token t p).down lines := by
  rw [Match.token, Position.after_down]
  rfl

/-- The end of the text is not looked for among the tokens. -/
theorem scan_between (cs : List Char) :
    scan Stage.between.follow cs = scan Stage.start.follow cs := by
  unfold scan
  congr 1
  funext t
  cases t <;> rfl

/-- A reader that has the statements `before` already and reads on further down, beside one that
reads the same text alone. They are at the same stage, save that the one begins its first line
after a statement. -/
inductive Resumes (lines : Nat) (before : List Statement) :
    Reader → Option Token → Reader → Option Token → Prop
  | start (last last' : Option Token) :
    Resumes lines before ⟨[], .start⟩ last ⟨before, .between⟩ last'
  | reading (r : Reader) (t : Token) :
    Resumes lines before r (some t) (r.moved (Token.down lines) before) (some (t.down lines))

variable {lines : Nat} {before : List Statement} {r r' : Reader} {last last' : Option Token}

theorem Resumes.scan_eq (h : Resumes lines before r last r' last') (cs : List Char) :
    scan r'.stage.follow cs = scan r.stage.follow cs := by
  cases h with
  | start => exact scan_between cs
  | reading t => exact congrArg (scan · cs) (Stage.follow_map _ r.stage)

theorem feed_between {done : List Statement} {t : Token} (ht : t.terminal ≠ .newline)
    (h : Reader.feed ⟨done, .start⟩ t = .reading r) :
    Reader.feed ⟨done, .between⟩ t = .reading r := by
  unfold Reader.feed at h ⊢
  simp only [Stage.extend, Stage.close, startStatement] at h ⊢
  cases hterminal : t.terminal <;> simp_all [Stage.follow, afterStatement]

theorem feed_down (lines : Nat) (before : List Statement) (r : Reader) (t : Token) :
    (r.moved (Token.down lines) before).feed (t.down lines) =
      (r.feed t).moved (Token.down lines) before :=
  feed_moved (f := Token.down lines) (fun _ => rfl) before r t

theorem Resumes.feed {t : Token} {r₁ : Reader} (h : Resumes lines before r last r' last')
    (hfeed : r.feed t = .reading r₁) :
    ∃ r₁', r'.feed (t.down lines) = .reading r₁' ∧
      Resumes lines before r₁ (some t) r₁' (some (t.down lines)) := by
  cases h with
  | start =>
    by_cases ht : t.terminal = .newline
    · have ht' : (t.down lines).terminal = .newline := ht
      rw [feed_start_newline (.inl rfl) ht] at hfeed
      cases hfeed
      exact ⟨_, feed_start_newline (.inr rfl) ht', .start _ _⟩
    · have hstart := feed_down lines before ⟨[], .start⟩ t
      have hmoved : Reader.moved (Token.down lines) before ⟨[], .start⟩ = ⟨before, .start⟩ := by
        simp [Reader.moved, movedAfter, Stage.map]
      rw [hfeed, hmoved] at hstart
      exact ⟨_, feed_between ht hstart, .reading r₁ t⟩
  | reading t' =>
    refine ⟨_, ?_, .reading r₁ t⟩
    rw [feed_down, hfeed]
    rfl

theorem Resumes.feed_end {statements : List Statement} (h : Resumes lines before r last r' last')
    (hfeed : r.feed (endToken last) = .whole statements) :
    r'.feed (endToken last') = .whole (movedAfter (Token.down lines) before statements) := by
  cases h with
  | start last => cases last <;> simp [endToken, Reader.feed, Stage.follow] at hfeed
  | reading r t =>
    have hmoved := feed_down lines before r (endToken (some t))
    rw [hfeed] at hmoved
    exact hmoved

/-- A text is read in the same way further down and after other statements. -/
theorem readFrom_resumes (h : Resumes lines before r last r' last') {start : Position}
    {cs : List Char} {statements : List Statement}
    (hread : readFrom r last start cs = .ok statements) :
    readFrom r' last' (start.down lines) cs =
      .ok (movedAfter (Token.down lines) before statements) := by
  fun_induction readFrom r last start cs generalizing r' last'
  case case1 r last start cs p hs statements hfeed =>
    cases hread
    have hskip := skip_down lines false start cs
    rw [hs] at hskip
    exact readFrom_end hskip (h.feed_end hfeed)
  case case4 r last start cs p c left hs terminal m hm t r₁ hfeed ih =>
    have hskip := skip_down lines false start cs
    rw [hs] at hskip
    obtain ⟨r₁', hfeed', h'⟩ := h.feed hfeed
    have hscan : scan r'.stage.follow (c :: left) = some (terminal, m) := by
      rw [h.scan_eq, hm]
    have htoken : m.token terminal (p.down lines) = t.down lines := m.token_down terminal lines p
    rw [← htoken] at hfeed'
    rw [readFrom_token hskip hscan hfeed', htoken, Position.after_down]
    exact ih h' hread
  case case5 r last start cs p c left hs terminal m hm t statements hfeed =>
    exact absurd (ends_of_whole hfeed).1 (scan_sound hm).2.ne_end
  all_goals cases hread

/-- At the start of a text its first line ends can be left out. -/
theorem readFrom_start (last : Option Token) (start : Position) (cs : List Char) :
    ∃ last', readFrom ⟨[], .start⟩ last start cs =
      readFrom ⟨[], .start⟩ last' (start.after (newlineRun cs))
        (cs.drop (newlineRun cs).length) := by
  by_cases hrun : newlineRun cs = []
  · rw [hrun]
    exact ⟨last, rfl⟩
  · have hfollow : Stage.start.follow.contains .newline := rfl
    have hskip := skip_of_scan (scan_newlines hfollow hrun) start
    obtain ⟨t, hread⟩ := readFrom_newlines last hfollow
      (fun t ht => feed_start_newline (r := ⟨[], .start⟩) (.inl rfl) ht) hskip hrun
    exact ⟨some t, hread⟩

end Second

/-- Two texts that can be read can be read one after the other, with a line feed between them. The
statements of the second one stand further down, and nothing else is different. -/
theorem parse_join {a b : String} {first second : List Statement} (ha : parse a = .ok first)
    (hb : parse b = .ok second) :
    parse (a ++ "\n" ++ b) =
      .ok (first ++ second.map (Statement.map (Token.down (a.toList.count '\n' + 1)))) := by
  have htext : (a ++ "\n" ++ b).toList = a.toList ++ '\n' :: b.toList := by
    simp
  have horigin : Position.origin = .of [] := rfl
  obtain ⟨t, hfirst⟩ := readFrom_line horigin ha b.toList
  rw [parse, htext, hfirst, List.nil_append, Position.of_line]
  obtain ⟨last, hsecond⟩ := readFrom_start none .origin b.toList
  rw [parse, hsecond, horigin, Position.after_of, List.nil_append] at hb
  exact readFrom_resumes (.start last (some t)) hb

end GateScript.Source
