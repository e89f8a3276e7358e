import GateScript.Editor.Session
import Mathlib.Data.List.Forall2

/-!
The word under the cursor.

The word at an offset of a line is the largest run of word characters that the offset is in or next
to. The search backwards and the search forwards from the offset find its two ends, and from every
offset of the word they find the same ones. Only the search backwards can fail: it looks at the
character before the offset, and past the end of the line there is none.
-/
namespace GateScript.Editor

section Runs

/-- The character at a place of a line belongs to a word. -/
def WordCharAt (content : List Char) (i : Nat) : Prop :=
  ∃ c, content[i]? = some c ∧ Text.isWordChar c = true

/-- The characters from `start` up to `stop` belong to a word. -/
structure IsRun (content : List Char) (start stop : Nat) : Prop where
  ordered : start ≤ stop
  within : stop ≤ content.length
  chars : ∀ i, start ≤ i → i < stop → WordCharAt content i

/-- The word at an offset: the largest run that the offset is in or next to. -/
structure IsWordAt (content : List Char) (offset start stop : Nat) : Prop where
  run : IsRun content start stop
  start_le : start ≤ offset
  le_stop : offset ≤ stop
  greatest : ∀ s e, IsRun content s e → s ≤ offset → offset ≤ e → start ≤ s ∧ e ≤ stop

variable {content : List Char} {offset start stop i : Nat}

theorem WordCharAt.lt_length (h : WordCharAt content i) : i < content.length := by
  obtain ⟨c, hc, -⟩ := h
  exact (List.getElem?_eq_some_iff.mp hc).1

theorem wordCharAt_drop : WordCharAt (content.drop offset) i ↔ WordCharAt content (offset + i) := by
  simp only [WordCharAt, List.getElem?_drop]

theorem isRun_empty (h : offset ≤ content.length) : IsRun content offset offset where
  ordered := Nat.le_refl offset
  within := h
  chars i hi hi' := by omega

theorem WordCharAt.isRun (h : WordCharAt content i) : IsRun content i (i + 1) where
  ordered := Nat.le_succ i
  within := h.lt_length
  chars j hj hj' := by
    obtain rfl : j = i := by omega
    exact h

/-- Two runs that meet are one run together. -/
theorem IsRun.union {s e : Nat} (h : IsRun content start stop) (h' : IsRun content s e)
    (hs : s ≤ stop) (he : start ≤ e) : IsRun content (min start s) (max stop e) where
  ordered := by
    have hordered := h.ordered
    omega
  within := Nat.max_le.mpr ⟨h.within, h'.within⟩
  chars i hi hi' := by
    by_cases hin : start ≤ i ∧ i < stop
    · exact h.chars i hin.1 hin.2
    · have hlower : s ≤ i := by omega
      have hupper : i < e := by omega
      exact h'.chars i hlower hupper

theorem IsRun.append (h : IsRun content start offset) (h' : IsRun content offset stop) :
    IsRun content start stop := by
  have hunion := h.union h' (Nat.le_refl offset) (Nat.le_trans h.ordered h'.ordered)
  rwa [Nat.min_eq_left h.ordered, Nat.max_eq_right h'.ordered] at hunion

/-- A run that cannot be extended on either side is the word at each of its offsets. -/
theorem IsRun.isWordAt (h : IsRun content start stop)
    (hbefore : ∀ i, start = i + 1 → ¬WordCharAt content i) (hafter : ¬WordCharAt content stop)
    (hstart : start ≤ offset) (hstop : offset ≤ stop) : IsWordAt content offset start stop where
  run := h
  start_le := hstart
  le_stop := hstop
  greatest s e hrun hs he := by
    constructor
    · by_contra hlt
      have hchar := hrun.chars (start - 1) (by omega) (by omega)
      exact hbefore (start - 1) (by omega) hchar
    · by_contra hlt
      have hchar := hrun.chars stop (by omega) (by omega)
      exact hafter hchar

/-- The word is the same at all its offsets. -/
theorem IsWordAt.move (h : IsWordAt content offset start stop) {other : Nat}
    (hstart : start ≤ other) (hstop : other ≤ stop) : IsWordAt content other start stop where
  run := h.run
  start_le := hstart
  le_stop := hstop
  greatest s e hrun hs he := by
    -- a larger run at the other offset would make a larger one at this offset
    have hunion := h.run.union hrun (by omega) (by omega)
    have hleft := h.start_le
    have hright := h.le_stop
    have hgreatest := h.greatest _ _ hunion (by omega) (by omega)
    omega

theorem IsWordAt.unique {s e : Nat} (h : IsWordAt content offset start stop)
    (h' : IsWordAt content offset s e) : start = s ∧ stop = e := by
  have hle := h.greatest s e h'.run h'.start_le h'.le_stop
  have hge := h'.greatest start stop h.run h.start_le h.le_stop
  omega

end Runs

section Search

variable {content : List Char} {offset start : Nat}

/-- The search backwards goes over a run, and stops before a character that is of no word. -/
theorem wordStart_run (h : wordStart content offset = .ok start) :
    IsRun content start offset ∧ ∀ i, start = i + 1 → ¬WordCharAt content i := by
  induction offset with
  | zero =>
    cases h
    exact ⟨isRun_empty (Nat.zero_le _), nofun⟩
  | succ i ih =>
    rw [wordStart] at h
    cases hc : content[i]? with
    | none => simp [hc] at h
    | some c =>
      simp only [hc] at h
      by_cases hword : Text.isWordChar c = true
      · rw [if_pos hword] at h
        obtain ⟨hrun, hbefore⟩ := ih h
        have hchar : WordCharAt content i := ⟨c, hc, hword⟩
        exact ⟨hrun.append hchar.isRun, hbefore⟩
      · rw [if_neg hword] at h
        cases h
        have hlength : i < content.length := (List.getElem?_eq_some_iff.mp hc).1
        refine ⟨isRun_empty hlength, ?_⟩
        rintro j hj ⟨d, hd, hword'⟩
        obtain rfl : i = j := by omega
        rw [hc] at hd
        cases hd
        exact hword hword'

/-- The search backwards comes to an end just if it begins within the line. -/
theorem exists_wordStart_iff :
    (∃ start, wordStart content offset = .ok start) ↔ offset ≤ content.length := by
  constructor
  · rintro ⟨start, h⟩
    exact (wordStart_run h).1.within
  · intro h
    induction offset with
    | zero => exact ⟨0, rfl⟩
    | succ i ih =>
      have hc : content[i]? = some content[i] := List.getElem?_eq_getElem h
      by_cases hword : Text.isWordChar content[i] = true
      · obtain ⟨start, hstart⟩ := ih (by omega)
        refine ⟨start, ?_⟩
        simp [wordStart, hc, hword, hstart]
      · refine ⟨i + 1, ?_⟩
        simp [wordStart, hc, hword]

theorem takeWhile_chars (cs : List Char) :
    (∀ i < (cs.takeWhile Text.isWordChar).length, WordCharAt cs i) ∧
      ¬WordCharAt cs (cs.takeWhile Text.isWordChar).length := by
  induction cs with
  | nil => simp [WordCharAt]
  | cons c cs ih =>
    by_cases hword : Text.isWordChar c = true
    · rw [List.takeWhile_cons_of_pos hword, List.length_cons]
      constructor
      · intro i hi
        cases i with
        | zero => exact ⟨c, rfl, hword⟩
        | succ i => exact ih.1 i (by omega)
      · exact ih.2
    · rw [List.takeWhile_cons_of_neg hword]
      constructor
      · intro i hi
        simp at hi
      · rintro ⟨d, hd, hword'⟩
        cases hd
        exact hword hword'

/-- The search forwards goes over a run, and stops at a character that is of no word. -/
theorem wordStop_run (h : offset ≤ content.length) :
    IsRun content offset (wordStop content offset) ∧
      ¬WordCharAt content (wordStop content offset) := by
  obtain ⟨hchars, hafter⟩ := takeWhile_chars (content.drop offset)
  constructor
  · constructor
    · exact Nat.le_add_right offset _
    · have hlength := (List.takeWhile_sublist Text.isWordChar (l := content.drop offset)).length_le
      rw [List.length_drop] at hlength
      unfold wordStop
      omega
    · intro i hi hi'
      have hchar := hchars (i - offset) (by unfold wordStop at hi'; omega)
      rw [wordCharAt_drop] at hchar
      rwa [Nat.add_sub_cancel' hi] at hchar
  · rwa [wordCharAt_drop] at hafter

/-- Where the search succeeds, it finds the word at the offset. -/
theorem isWordAt_of_wordStart (h : wordStart content offset = .ok start) :
    IsWordAt content offset start (wordStop content offset) := by
  obtain ⟨hrun, hbefore⟩ := wordStart_run h
  obtain ⟨hrun', hafter⟩ := wordStop_run hrun.within
  exact (hrun.append hrun').isWordAt hbefore hafter hrun.ordered hrun'.ordered

end Search

section Entries

variable {e : Entry} {word : List Char}

end Entries

section Answers

variable {text : String} {number offset start stop : Nat} {content : List Char}

/-- What is shown at an offset of a line, by the word there. -/
theorem hover_eq (hline : (Text.lines text.toList)[number]? = some content)
    (h : IsWordAt content offset start stop) :
    hover text number offset =
      .ok ((entryOfWord? ((content.take stop).drop start)).map fun e =>
        ⟨e.markdown, ⟨number, start, stop⟩⟩) := by
  have hoffset : offset ≤ content.length := Nat.le_trans h.le_stop h.run.within
  obtain ⟨found, hfound⟩ := exists_wordStart_iff.mpr hoffset
  obtain ⟨rfl, rfl⟩ := h.unique (isWordAt_of_wordStart hfound)
  simp [hover, hline, hfound, Except.map]

end Answers

section Requests

variable {s : Session} {uri text : String} {number offset : Nat} {content : List Char}

theorem hover_afterLast (h : (Text.lines text.toList)[number]? = none) :
    hover text number offset = .ok none := by
  simp [hover, h]

/-- Within a line there is always an answer. -/
theorem exists_hover (hline : (Text.lines text.toList)[number]? = some content)
    (h : offset ≤ content.length) : ∃ found, hover text number offset = .ok found := by
  obtain ⟨start, hstart⟩ := exists_wordStart_iff.mpr h
  exact ⟨_, hover_eq hline (isWordAt_of_wordStart hstart)⟩

/-- Past the end of a line the search backwards finds no character to begin with. -/
theorem hover_pastEnd (hline : (Text.lines text.toList)[number]? = some content)
    (h : content.length < offset) : hover text number offset = .error .pastEnd := by
  cases hstart : wordStart content offset with
  | ok start =>
    have hwithin := exists_wordStart_iff.mp ⟨start, hstart⟩
    omega
  | error e =>
    cases e
    simp [hover, hline, hstart, Except.map]

theorem answer_hover_ok {found : Option Hover} (h : s.text? uri = some text)
    (hfound : hover text number offset = .ok found) :
    s.answer (.hover uri number offset) = (s, .ok (.hover found)) := by
  simp [Session.answer, Session.withText, h, hfound]

theorem answer_hover_error {e : HoverError} (h : s.text? uri = some text)
    (he : hover text number offset = .error e) :
    s.answer (.hover uri number offset) = (s, .error (.hover e)) := by
  simp [Session.answer, Session.withText, h, he]

/-- A request about a position of a known document is answered just if the position is not past the
end of its line. After the last line the answer is that there is nothing to show. Past the end of a
line the request fails, although it is answered at the end. In any case the session stays as it
is. -/
theorem hover_answered_iff (h : s.text? uri = some text) (number offset : Nat) :
    ((∃ found, s.answer (.hover uri number offset) = (s, .ok (.hover found))) ↔
      ∀ content, (Text.lines text.toList)[number]? = some content → offset ≤ content.length) ∧
    ((Text.lines text.toList).length ≤ number →
      s.answer (.hover uri number offset) = (s, .ok (.hover none))) ∧
    ∀ content, (Text.lines text.toList)[number]? = some content → content.length < offset →
      s.answer (.hover uri number offset) = (s, .error (.hover .pastEnd)) ∧
      ∃ found, s.answer (.hover uri number content.length) = (s, .ok (.hover found)) := by
  refine ⟨?_, ?_, ?_⟩
  · constructor
    · rintro ⟨found, hanswer⟩ content hline
      by_contra hbeyond
      rw [answer_hover_error h (hover_pastEnd hline (by omega))] at hanswer
      simp at hanswer
    · intro hwithin
      cases hline : (Text.lines text.toList)[number]? with
      | none => exact ⟨none, answer_hover_ok h (hover_afterLast hline)⟩
      | some content =>
        obtain ⟨found, hfound⟩ := exists_hover hline (hwithin content hline)
        exact ⟨found, answer_hover_ok h hfound⟩
  · intro hnumber
    have hline : (Text.lines text.toList)[number]? = none := List.getElem?_eq_none hnumber
    exact answer_hover_ok h (hover_afterLast hline)
  · intro content hline hbeyond
    obtain ⟨found, hfound⟩ := exists_hover hline (Nat.le_refl content.length)
    exact ⟨answer_hover_error h (hover_pastEnd hline hbeyond), found, answer_hover_ok h hfound⟩

/-- Two documents, the second one with an empty line between two others. -/
def twoDocuments : Session := [("u", "0 -> H"), ("v", "x : b 0\r\n\n0 -> X if x")]

theorem hover_answered_iff_empty :
    twoDocuments.text? "v" = some "x : b 0\r\n\n0 -> X if x" ∧
      (∃ found, twoDocuments.answer (.hover "v" 1 0) = (twoDocuments, .ok (.hover found))) ∧
      twoDocuments.answer (.hover "v" 1 1) = (twoDocuments, .error (.hover .pastEnd)) ∧
      twoDocuments.answer (.hover "v" 3 1) = (twoDocuments, .ok (.hover none)) := by
  have htext : twoDocuments.text? "v" = some "x : b 0\r\n\n0 -> X if x" := by decide
  have hline : (Text.lines "x : b 0\r\n\n0 -> X if x".toList)[1]? = some [] := by decide +kernel
  have hlast : (Text.lines "x : b 0\r\n\n0 -> X if x".toList).length ≤ 3 := by decide +kernel
  obtain ⟨-, -, hfails⟩ := hover_answered_iff htext 1 1
  obtain ⟨-, hnothing, -⟩ := hover_answered_iff htext 3 1
  obtain ⟨herror, hfound⟩ := hfails [] hline (by decide)
  exact ⟨htext, hfound, herror, hnothing hlast⟩

/-- One past the end of a line that ends in a gate. -/
theorem hover_pastEnd_gate :
    twoDocuments.answer (.hover "u" 0 7) = (twoDocuments, .error (.hover .pastEnd)) := by
  decide +kernel

end Requests

end GateScript.Editor
