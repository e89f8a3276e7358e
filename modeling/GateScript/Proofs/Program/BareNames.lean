import GateScript.Program.Inline
import Mathlib.Data.Finset.Card
import Mathlib.Data.Finset.Dedup
import Mathlib.Logic.Relation

/-!
Bare names in pipelines.

Writing out a pipeline opens the declared names that it meets, and closes each of them once its
pipeline is written out. `Walks` has one set of open names for the whole of a walk. A walk ends,
since a name that is opened leaves one name less to open, and the set is then as it was before. A
name is met while it is open exactly if the pipeline leads to a name that leads back to itself.
-/
namespace GateScript.Program

open Relation (ReflTransGen TransGen)

/-- A declared name leads to the bare names in its pipeline. -/
def PipelineTable.Leads (table : PipelineTable) (n m : String) : Prop :=
  ∃ body, table.find? n = some body ∧ .name m ∈ body

/-- Following bare names, a pipeline comes to this one. -/
def Meets (table : PipelineTable) (parts : List LoosePart) (n : String) : Prop :=
  ∃ m, .name m ∈ parts ∧ ReflTransGen table.Leads m n

/-- A pipeline comes to a name that leads back to itself. -/
def MeetsCycle (table : PipelineTable) (parts : List LoosePart) : Prop :=
  ∃ n, Meets table parts n ∧ TransGen table.Leads n n

/-- Every declared name is replaced by what its pipeline comes to, at every depth. All else is left
where it is. -/
inductive WritesOut (table : PipelineTable) : List LoosePart → List LoosePart → Prop
  | nil : WritesOut table [] []
  | part (p : Part) {parts out : List LoosePart} (rest : WritesOut table parts out) :
    WritesOut table (.part p :: parts) (.part p :: out)
  | undeclared {n : String} (hn : table.find? n = none) {parts out : List LoosePart}
      (rest : WritesOut table parts out) : WritesOut table (.name n :: parts) (.name n :: out)
  | declared {n : String} {body inner : List LoosePart} (hn : table.find? n = some body)
      (hbody : WritesOut table body inner) {parts out : List LoosePart}
      (rest : WritesOut table parts out) : WritesOut table (.name n :: parts) (inner ++ out)

/-- How a walk ends: with what is written out and the names that are open then, or at a name that is
open. -/
abbrev Walked := Except CyclicReference (List LoosePart × Finset String)

/-- What was written out before comes first. -/
def Walked.after (before : List LoosePart) (r : Walked) : Walked :=
  r.map fun x => (before ++ x.1, x.2)

/-- A walk through a pipeline while some names are open. -/
inductive Walks (table : PipelineTable) : Finset String → List LoosePart → Walked → Prop
  | nil (seen : Finset String) : Walks table seen [] (.ok ([], seen))
  | part {seen : Finset String} (p : Part) {parts : List LoosePart} {r : Walked}
      (rest : Walks table seen parts r) : Walks table seen (.part p :: parts) (.after [.part p] r)
  | again {seen : Finset String} {n : String} (hseen : n ∈ seen) (parts : List LoosePart) :
    Walks table seen (.name n :: parts) (.error ⟨n⟩)
  | undeclared {seen : Finset String} {n : String} (hseen : n ∉ seen) (hn : table.find? n = none)
      {parts : List LoosePart} {r : Walked} (rest : Walks table seen parts r) :
    Walks table seen (.name n :: parts) (.after [.name n] r)
  | declared {seen seen' : Finset String} {n : String} {body inner : List LoosePart}
      (hseen : n ∉ seen) (hn : table.find? n = some body)
      (hbody : Walks table (insert n seen) body (.ok (inner, seen')))
      {parts : List LoosePart} {r : Walked} (rest : Walks table (seen'.erase n) parts r) :
    Walks table seen (.name n :: parts) (.after inner r)
  | inside {seen : Finset String} {n : String} {body : List LoosePart} {e : CyclicReference}
      (hseen : n ∉ seen) (hn : table.find? n = some body)
      (hbody : Walks table (insert n seen) body (.error e)) (parts : List LoosePart) :
    Walks table seen (.name n :: parts) (.error e)

variable {table : PipelineTable} {seen : Finset String} {parts out : List LoosePart}

section Ending

theorem Walked.after_eq_ok {before : List LoosePart} {r : Walked} {seen' : Finset String}
    (h : Walked.after before r = .ok (out, seen')) :
    ∃ later, r = .ok (later, seen') ∧ out = before ++ later := by
  cases r with
  | error e => cases h
  | ok x =>
    cases h
    exact ⟨x.1, rfl, rfl⟩

theorem Walked.after_eq_error {before : List LoosePart} {r : Walked} {e : CyclicReference}
    (h : Walked.after before r = .error e) : r = .error e := by
  cases r with
  | error e' => exact h
  | ok x => cases h

/-- A walk closes what it opens. -/
theorem Walks.seen_eq {r : Walked} (h : Walks table seen parts r) {seen' : Finset String}
    (hr : r = .ok (out, seen')) : seen' = seen := by
  induction h generalizing out seen' with
  | nil seen =>
    cases hr
    rfl
  | part p _ ih | undeclared _ _ _ ih =>
    obtain ⟨later, hlater, -⟩ := Walked.after_eq_ok hr
    exact ih hlater
  | again _ _ => cases hr
  | declared hseen _ _ _ ihbody ih =>
    obtain ⟨later, hlater, -⟩ := Walked.after_eq_ok hr
    rw [ih hlater, ihbody rfl, Finset.erase_insert hseen]
  | inside _ _ _ _ _ => cases hr

/-- The names that are declared. -/
def PipelineTable.declared (table : PipelineTable) : Finset String := (table.map Prod.fst).toFinset

theorem mem_declared {n : String} {body : List LoosePart} (h : table.find? n = some body) :
    n ∈ table.declared := by
  unfold PipelineTable.find? at h
  obtain ⟨entry, hentry, -⟩ := Option.map_eq_some_iff.mp h
  have hname : entry.1 = n := by simpa using List.find?_some hentry
  have hmem : entry ∈ table := List.mem_reverse.mp (List.mem_of_find?_eq_some hentry)
  rw [PipelineTable.declared, List.mem_toFinset, ← hname]
  exact List.mem_map_of_mem hmem

theorem card_declared_le (table : PipelineTable) : table.declared.card ≤ table.length := by
  have h := (table.map Prod.fst).toFinset_card_le
  rwa [List.length_map] at h

/-- A declared name that is opened leaves one less to open. -/
theorem card_sdiff_insert {n : String} {body : List LoosePart} (hseen : n ∉ seen)
    (hn : table.find? n = some body) :
    (table.declared \ insert n seen).card + 1 = (table.declared \ seen).card := by
  have hmem : n ∈ table.declared \ seen := Finset.mem_sdiff.mpr ⟨mem_declared hn, hseen⟩
  rw [Finset.sdiff_insert, Finset.card_erase_add_one hmem]

/-- Every walk ends. -/
theorem exists_walks (table : PipelineTable) (seen : Finset String) (parts : List LoosePart) :
    ∃ r, Walks table seen parts r := by
  -- by induction on the number of names that are left to open
  induction hcard : (table.declared \ seen).card using Nat.strong_induction_on
    generalizing seen parts with
  | _ count ih =>
    subst hcard
    induction parts with
    | nil => exact ⟨_, .nil seen⟩
    | cons part parts ihparts =>
      obtain ⟨r, hr⟩ := ihparts
      cases part with
      | part p => exact ⟨_, .part p hr⟩
      | name n =>
        by_cases hseen : n ∈ seen
        · exact ⟨_, .again hseen parts⟩
        cases hn : table.find? n with
        | none => exact ⟨_, .undeclared hseen hn hr⟩
        | some body =>
          have hless : (table.declared \ insert n seen).card < (table.declared \ seen).card := by
            rw [← card_sdiff_insert hseen hn]
            exact Nat.lt_succ_self _
          obtain ⟨rbody, hbody⟩ := ih _ hless (insert n seen) body rfl
          cases rbody with
          | error e => exact ⟨_, .inside hseen hn hbody parts⟩
          | ok x =>
            have hclosed : x.2.erase n = seen := by
              rw [hbody.seen_eq rfl, Finset.erase_insert hseen]
            exact ⟨_, .declared hseen hn hbody (hclosed ▸ hr)⟩

theorem map_inlineAll_ok {f : LoosePart → Except CyclicReference (List LoosePart)}
    {part : LoosePart} {before : List LoosePart} (h : f part = .ok before)
    (parts : List LoosePart) (seen : Finset String) :
    (inlineAll f (part :: parts)).map (·, seen) =
      Walked.after before ((inlineAll f parts).map (·, seen)) := by
  rw [inlineAll, h]
  cases inlineAll f parts <;> rfl

theorem inlineAll_error {f : LoosePart → Except CyclicReference (List LoosePart)}
    {part : LoosePart} {e : CyclicReference} (h : f part = .error e) (parts : List LoosePart) :
    inlineAll f (part :: parts) = .error e := by
  rw [inlineAll, h]

theorem inlinePart_again {n : String} {active : List String} (h : n ∈ active) (depth : Nat) :
    inlinePart table depth active (.name n) = .error ⟨n⟩ := by
  cases depth <;> simp [inlinePart, h]

theorem inlinePart_undeclared {n : String} {active : List String} (h : n ∉ active)
    (hn : table.find? n = none) (depth : Nat) :
    inlinePart table depth active (.name n) = .ok [.name n] := by
  cases depth <;> simp [inlinePart, h, hn]

/-- A declared name that is not open is opened, with a depth that still allows for the others. -/
theorem inlinePart_declared {n : String} {body : List LoosePart} {active : List String}
    {depth : Nat} (hactive : ∀ n, n ∈ active ↔ n ∈ seen)
    (hdepth : (table.declared \ seen).card ≤ depth) (hseen : n ∉ seen)
    (hn : table.find? n = some body) :
    ∃ depth', (∀ m, m ∈ n :: active ↔ m ∈ insert n seen) ∧
      (table.declared \ insert n seen).card ≤ depth' ∧
      inlinePart table depth active (.name n) =
        inlineAll (inlinePart table depth' (n :: active)) body := by
  have hopen : n ∉ active := mt (hactive n).mp hseen
  rw [← card_sdiff_insert hseen hn] at hdepth
  cases depth with
  | zero => exact absurd hdepth (Nat.not_succ_le_zero _)
  | succ depth =>
    refine ⟨depth, fun m => ?_, Nat.le_of_succ_le_succ hdepth, by simp [inlinePart, hopen, hn]⟩
    rw [List.mem_cons, Finset.mem_insert, hactive]

/-- A walk ends as writing out does, if the depth allows for the names that are left to open. -/
theorem Walks.eq_inlineAll {r : Walked} (h : Walks table seen parts r) {depth : Nat}
    {active : List String} (hactive : ∀ n, n ∈ active ↔ n ∈ seen)
    (hdepth : (table.declared \ seen).card ≤ depth) :
    r = (inlineAll (inlinePart table depth active) parts).map (·, seen) := by
  induction h generalizing depth active with
  | nil seen => rfl
  | part p _ ih =>
    have hpart : inlinePart table depth active (.part p) = .ok [.part p] := by
      cases depth <;> rfl
    rw [map_inlineAll_ok hpart, ih hactive hdepth]
  | again hseen parts =>
    rw [inlineAll_error (inlinePart_again ((hactive _).mpr hseen) depth)]
    rfl
  | undeclared hseen hn _ ih =>
    have hopen := mt (hactive _).mp hseen
    rw [map_inlineAll_ok (inlinePart_undeclared hopen hn depth), ih hactive hdepth]
  | @declared seen _ n _ inner hseen hn hbody _ _ _ ihbody ih =>
    obtain ⟨depth', hactive', hdepth', hopened⟩ := inlinePart_declared hactive hdepth hseen hn
    have hinner := ihbody hactive' hdepth'
    rw [← hopened] at hinner
    rw [hbody.seen_eq rfl, Finset.erase_insert hseen] at ih
    have hpart : inlinePart table depth active (.name n) = .ok inner := by
      cases hpart : inlinePart table depth active (.name n) with
      | error e => simp [hpart, Except.map] at hinner
      | ok inner' =>
        simp only [hpart, Except.map, Except.ok.injEq, Prod.mk.injEq] at hinner
        rw [hinner.1]
    rw [map_inlineAll_ok hpart, ih hactive hdepth]
  | @inside _ n _ e hseen hn hbody parts ih =>
    obtain ⟨depth', hactive', hdepth', hopened⟩ := inlinePart_declared hactive hdepth hseen hn
    have hinner := ih hactive' hdepth'
    rw [← hopened] at hinner
    have hpart : inlinePart table depth active (.name n) = .error e := by
      cases hpart : inlinePart table depth active (.name n) with
      | ok inner => simp [hpart, Except.map] at hinner
      | error e' =>
        simp only [hpart, Except.map, Except.error.injEq] at hinner
        rw [hinner]
    rw [inlineAll_error hpart]
    rfl

theorem walks_iff (table : PipelineTable) (parts : List LoosePart) (r : Walked) :
    Walks table ∅ parts r ↔ r = (inlineParts table parts).map (·, ∅) := by
  have hwalks : ∀ r, Walks table ∅ parts r → r = (inlineParts table parts).map (·, ∅) := by
    intro r h
    refine h.eq_inlineAll (by simp) ?_
    rw [Finset.sdiff_empty]
    exact card_declared_le table
  refine ⟨hwalks r, ?_⟩
  rintro rfl
  obtain ⟨r, hr⟩ := exists_walks table ∅ parts
  rwa [← hwalks r hr]

end Ending

section Cycles

theorem Meets.of_mem {n : String} (h : .name n ∈ parts) : Meets table parts n := ⟨n, h, .refl⟩

theorem Meets.cons {n : String} (h : Meets table parts n) (part : LoosePart) :
    Meets table (part :: parts) n := by
  obtain ⟨m, hm, hpath⟩ := h
  exact ⟨m, List.mem_cons_of_mem part hm, hpath⟩

/-- What the pipeline of a name comes to, the name leads to. -/
theorem Meets.transGen {n m : String} {body : List LoosePart} (h : Meets table body m)
    (hn : table.find? n = some body) : TransGen table.Leads n m := by
  obtain ⟨k, hk, hpath⟩ := h
  exact .head' ⟨body, hn, hk⟩ hpath

/-- A walk that fails has come to a name that was open, or that leads back to itself. -/
theorem Walks.meets_of_error {r : Walked} (h : Walks table seen parts r) {n : String}
    (hr : r = .error ⟨n⟩) : Meets table parts n ∧ (n ∈ seen ∨ TransGen table.Leads n n) := by
  induction h with
  | nil seen => cases hr
  | part p _ ih | undeclared _ _ _ ih =>
    obtain ⟨hmeets, hopen⟩ := ih (Walked.after_eq_error hr)
    exact ⟨hmeets.cons _, hopen⟩
  | again hseen parts =>
    cases hr
    exact ⟨.of_mem List.mem_cons_self, .inl hseen⟩
  | declared hseen hn hbody _ _ ih =>
    obtain ⟨hmeets, hopen⟩ := ih (Walked.after_eq_error hr)
    rw [hbody.seen_eq rfl, Finset.erase_insert hseen] at hopen
    exact ⟨hmeets.cons _, hopen⟩
  | @inside seen m body e hseen hn hbody parts ih =>
    obtain ⟨hmeets, hopen⟩ := ih hr
    have hpath := hmeets.transGen hn
    refine ⟨⟨m, List.mem_cons_self, hpath.to_reflTransGen⟩, ?_⟩
    rcases hopen with hopen | hcycle
    · rcases Finset.mem_insert.mp hopen with rfl | hopen
      · exact .inr hpath
      · exact .inl hopen
    · exact .inr hcycle

theorem Walks.writesOut {r : Walked} (h : Walks table seen parts r) {seen' : Finset String}
    (hr : r = .ok (out, seen')) : WritesOut table parts out := by
  induction h generalizing out seen' with
  | nil seen =>
    cases hr
    exact .nil
  | part p _ ih =>
    obtain ⟨later, hlater, rfl⟩ := Walked.after_eq_ok hr
    exact .part p (ih hlater)
  | again _ _ => cases hr
  | undeclared _ hn _ ih =>
    obtain ⟨later, hlater, rfl⟩ := Walked.after_eq_ok hr
    exact .undeclared hn (ih hlater)
  | declared _ hn _ _ ihbody ih =>
    obtain ⟨later, hlater, rfl⟩ := Walked.after_eq_ok hr
    exact .declared hn (ihbody rfl) (ih hlater)
  | inside _ _ _ _ _ => cases hr

theorem WritesOut.unique {out' : List LoosePart} (h : WritesOut table parts out)
    (h' : WritesOut table parts out') : out = out' := by
  induction h generalizing out' with
  | nil =>
    cases h'
    rfl
  | part p _ ih =>
    cases h' with
    | part _ rest => rw [ih rest]
  | undeclared hn _ ih =>
    cases h' with
    | undeclared _ rest => rw [ih rest]
    | declared hn' _ _ => simp [hn] at hn'
  | declared hn _ _ ihbody ih =>
    cases h' with
    | undeclared hn' _ => simp [hn] at hn'
    | declared hn' hbody rest =>
      cases hn.symm.trans hn'
      rw [ihbody hbody, ih rest]

theorem WritesOut.undeclared_of_mem (h : WritesOut table parts out) {n : String}
    (hn : .name n ∈ out) : table.find? n = none := by
  induction h with
  | nil => simp at hn
  | part p _ ih => exact ih (by simpa using hn)
  | undeclared hm _ ih =>
    rcases List.mem_cons.mp hn with heq | hn
    · cases heq
      exact hm
    · exact ih hn
  | declared _ _ _ ihbody ih => exact (List.mem_append.mp hn).elim ihbody ih

/-- From a name that is written out there is no endless way. -/
theorem WritesOut.acc (h : WritesOut table parts out) {n : String} (hn : .name n ∈ parts) :
    Acc (fun a b => table.Leads b a) n := by
  induction h generalizing n with
  | nil => simp at hn
  | part p _ ih => exact ih (by simpa using hn)
  | undeclared hm _ ih =>
    rcases List.mem_cons.mp hn with heq | hn
    · cases heq
      refine ⟨_, fun k hk => ?_⟩
      obtain ⟨body, hbody, -⟩ := hk
      simp [hm] at hbody
    · exact ih hn
  | declared hm _ _ ihbody ih =>
    rcases List.mem_cons.mp hn with heq | hn
    · cases heq
      refine ⟨_, fun k hk => ?_⟩
      obtain ⟨body, hbody, hk⟩ := hk
      cases hm.symm.trans hbody
      exact ihbody hk
    · exact ih hn

theorem not_transGen_of_acc {n : String} (h : Acc (fun a b => table.Leads b a) n) :
    ¬TransGen table.Leads n n := by
  induction h with
  | intro n _ ih =>
    intro hcycle
    obtain ⟨k, hk, hpath⟩ := Relation.TransGen.head'_iff.mp hcycle
    exact ih k hk (.tail' hpath hk)

theorem WritesOut.not_meetsCycle (h : WritesOut table parts out) : ¬MeetsCycle table parts := by
  rintro ⟨n, ⟨m, hm, hpath⟩, hcycle⟩
  have hacc : ∀ k, ReflTransGen table.Leads m k → Acc (fun a b => table.Leads b a) k := by
    intro k hk
    induction hk with
    | refl => exact h.acc hm
    | tail _ hstep ih => exact ih.inv hstep
  exact not_transGen_of_acc (hacc n hpath) hcycle

theorem meets_of_inlineParts_error {n : String} (h : inlineParts table parts = .error ⟨n⟩) :
    Meets table parts n ∧ TransGen table.Leads n n := by
  have hwalk : Walks table ∅ parts (.error ⟨n⟩) := (walks_iff table parts _).mpr (by rw [h]; rfl)
  obtain ⟨hmeets, hopen⟩ := hwalk.meets_of_error rfl
  exact ⟨hmeets, hopen.resolve_left (Finset.notMem_empty n)⟩

theorem writesOut_of_inlineParts (h : inlineParts table parts = .ok out) :
    WritesOut table parts out := by
  have hwalk : Walks table ∅ parts (.ok (out, ∅)) := (walks_iff table parts _).mpr (by rw [h]; rfl)
  exact hwalk.writesOut rfl

end Cycles

/-- Writing out a pipeline walks through it with one set of open names, which is empty again at the
end. The walk always ends, and in one way. It fails exactly if a cycle can be reached, and then at a
name on one. Otherwise every declared name is written out, all other elements being left in their
places, so that only names that are not declared remain. -/
theorem inlineParts_resolves (table : PipelineTable) (parts : List LoosePart) :
    (∀ r, Walks table ∅ parts r ↔ r = (inlineParts table parts).map (·, ∅)) ∧
    ((∃ e, inlineParts table parts = .error e) ↔ MeetsCycle table parts) ∧
    (∀ n, inlineParts table parts = .error ⟨n⟩ →
      Meets table parts n ∧ TransGen table.Leads n n) ∧
    (∀ out, inlineParts table parts = .ok out ↔ WritesOut table parts out) ∧
    ∀ out, inlineParts table parts = .ok out → ∀ n, .name n ∈ out → table.find? n = none := by
  have hwrites : ∀ out, inlineParts table parts = .ok out ↔ WritesOut table parts out := by
    intro out
    refine ⟨writesOut_of_inlineParts, fun h => ?_⟩
    cases hparts : inlineParts table parts with
    | error e => exact absurd ⟨_, meets_of_inlineParts_error hparts⟩ h.not_meetsCycle
    | ok out' => rw [(writesOut_of_inlineParts hparts).unique h]
  refine ⟨walks_iff table parts, ⟨?_, fun hcycle => ?_⟩, fun n => meets_of_inlineParts_error,
    hwrites, fun out h n => (writesOut_of_inlineParts h).undeclared_of_mem⟩
  · rintro ⟨e, he⟩
    exact ⟨e.name, meets_of_inlineParts_error he⟩
  · cases hparts : inlineParts table parts with
    | error e => exact ⟨e, rfl⟩
    | ok out => exact absurd hcycle (writesOut_of_inlineParts hparts).not_meetsCycle

/-- Two pipelines that share a third, and two that lead to each other. -/
def sharedTable : PipelineTable :=
  [("base", [.part (.gate ⟨"H", []⟩)]), ("left", [.name "base", .part (.named ⟨"base", true⟩)]),
    ("right", [.part (.gate ⟨"X", []⟩), .name "base"]),
    ("top", [.name "left", .name "right", .name "left"]), ("there", [.name "top", .name "back"]),
    ("back", [.name "there"])]

theorem inlineParts_resolves_shared :
    (¬MeetsCycle sharedTable [.name "top", .name "free"] ∧
      WritesOut sharedTable [.name "top", .name "free"]
        [.part (.gate ⟨"H", []⟩), .part (.named ⟨"base", true⟩), .part (.gate ⟨"X", []⟩),
          .part (.gate ⟨"H", []⟩), .part (.gate ⟨"H", []⟩), .part (.named ⟨"base", true⟩),
          .name "free"]) ∧
    MeetsCycle sharedTable [.name "top", .name "back"] := by
  obtain ⟨-, hcycle, -, hwrites, -⟩ :=
    inlineParts_resolves sharedTable [.name "top", .name "free"]
  obtain ⟨-, hcycle', -, -, -⟩ := inlineParts_resolves sharedTable [.name "top", .name "back"]
  refine ⟨⟨fun h => ?_, (hwrites _).mp rfl⟩, hcycle'.mp ⟨⟨"back"⟩, rfl⟩⟩
  obtain ⟨e, he⟩ := hcycle.mpr h
  cases he

end GateScript.Program
