import GateScript.Command.CompileFile
import Mathlib.Data.List.Forall2

/-!
What the arguments of a command line set.

Reading goes from argument to argument. A step that does not end the reading takes one argument or
two, and puts values on top of those that are there, for the options that the first one is written
for. What is there already decides nothing, so a whole reading puts its values on top of any others:
an option in front of a command line stands as long as the rest does not set it again.
-/
namespace GateScript.Command

section Keys

/-- The key that a value is for. -/
def Setting.key? : Setting → Option String
  | .value key _ => some key
  | _ => none

/-- The keys that an option as written has values for, or takes the next argument for. -/
def Reading.keys (r : Reading) : List String :=
  r.settings.filterMap Setting.key? ++ (r.pending.map OptionRule.key).toList

/-- The keys of the options that an argument is taken for. -/
def Shape.keys (rules : OptionRules) : Shape → List String
  | .option f => ((readOption rules f).map Reading.keys).getD []
  | _ => []

/-- The keys of the options that the arguments of a command line are taken for. -/
def writtenKeys (rules : OptionRules) (args : List String) : List String :=
  (shapes rules args).flatMap (·.2.keys rules)

theorem key_of_setting {rule : OptionRule} {written key : String} {value : Option String}
    (h : rule.setting written = .value key value) : key = rule.key := by
  unfold OptionRule.setting at h
  split at h
  · split_ifs at h <;> cases h <;> rfl
  · cases h
  · cases h

end Keys

section Steps

variable {rules : OptionRules} {s t next : Settings} {entry : String × Shape}
  {rest later : List (String × Shape)} {arg : String} {f : Flagged} {r : Reading}
  {taken : List Setting}

/-- Settings that are taken go on top of whichever values are there. -/
theorem Settings.take_over {settings : List Setting} (h : s.take settings = .ok t) :
    ∃ added : List (String × Option String),
      (∀ entry ∈ added, Setting.value entry.1 entry.2 ∈ settings) ∧
      ∀ base, { s with values := base }.take settings = .ok { t with values := added ++ base } := by
  induction settings generalizing s with
  | nil =>
    cases h
    exact ⟨[], by simp, fun base => rfl⟩
  | cons setting settings ih =>
    cases setting with
    | value key value =>
      obtain ⟨added, hadded, hover⟩ := ih h
      refine ⟨added ++ [(key, value)], ?_, fun base => ?_⟩
      · intro entry hentry
        rcases List.mem_append.mp hentry with hearlier | hlast
        · exact List.mem_cons_of_mem _ (hadded entry hearlier)
        · obtain rfl := List.mem_singleton.mp hlast
          exact List.mem_cons_self
      · simpa [Settings.take] using hover ((key, value) :: base)
    | switch key =>
      obtain ⟨added, hadded, hover⟩ := ih h
      exact ⟨added, fun entry hentry => List.mem_cons_of_mem _ (hadded entry hentry), hover⟩
    | help => cases h
    | refused => cases h

theorem Settings.take_error {settings : List Setting} {p : Parsed}
    (h : s.take settings = .error p) : p = .help ∨ p = .usage := by
  induction settings generalizing s with
  | nil => cases h
  | cons setting settings ih =>
    cases setting with
    | value key value => exact ih h
    | switch key => exact ih h
    | help =>
      cases h
      exact Or.inl rfl
    | refused =>
      cases h
      exact Or.inr rfl

/-- The settings that a written option takes in front of the other arguments, and the arguments that
are left: one that waits for a value takes the operand that comes next. -/
inductive Reading.Takes (r : Reading) :
    List (String × Shape) → List Setting → List (String × Shape) → Prop
  | attached {rest : List (String × Shape)} (h : r.pending = none) : r.Takes rest r.settings rest
  | following {rule : OptionRule} {value : String} {rest : List (String × Shape)}
      (h : r.pending = some rule) :
      r.Takes ((value, .operand) :: rest) (r.settings ++ [rule.setting value]) rest

theorem Reading.Takes.suffix (h : r.Takes rest taken later) : later <:+ rest := by
  cases h with
  | attached => exact List.suffix_refl _
  | following => exact List.suffix_cons _ _

theorem Reading.Takes.mem_keys (h : r.Takes rest taken later) {key : String}
    {value : Option String} (hvalue : .value key value ∈ taken) : key ∈ r.keys := by
  have hown : .value key value ∈ r.settings → key ∈ r.keys := fun hmem =>
    List.mem_append_left _ (List.mem_filterMap.mpr ⟨_, hmem, rfl⟩)
  cases h with
  | attached => exact hown hvalue
  | @following rule _ _ hpending =>
    rcases List.mem_append.mp hvalue with hmem | hlast
    · exact hown hmem
    · have hkey : key = rule.key := key_of_setting (List.mem_singleton.mp hlast).symm
      exact List.mem_append_right _ (by simp [hpending, hkey])

theorem readArgs_takes (hread : readOption rules f = some r) (h : r.Takes rest taken later)
    (htake : s.take taken = .ok next) :
    readArgs rules s ((arg, .option f) :: rest) = readArgs rules next later := by
  cases h with
  | attached hpending => simp [readArgs, hread, hpending, htake]
  | following hpending => simp [readArgs, hread, hpending, htake]

/-- An option that does not end the reading has its settings taken. -/
theorem exists_takes (h : readArgs rules s ((arg, .option f) :: rest) = .run t) :
    ∃ r taken later next, readOption rules f = some r ∧ r.Takes rest taken later ∧
      s.take taken = .ok next := by
  cases hread : readOption rules f with
  | none => simp [readArgs, hread] at h
  | some r =>
    have hends : ∀ taken later, r.Takes rest taken later → ∃ next, s.take taken = .ok next := by
      intro taken later htakes
      cases htake : s.take taken with
      | ok next => exact ⟨next, rfl⟩
      | error p =>
        have hp : p = .run t := by
          cases htakes with
          | attached hpending => simpa [readArgs, hread, hpending, htake] using h
          | following hpending => simpa [readArgs, hread, hpending, htake] using h
        rcases Settings.take_error htake with rfl | rfl <;> cases hp
    cases hpending : r.pending with
    | none =>
      have htakes : r.Takes rest r.settings rest := .attached hpending
      obtain ⟨next, htake⟩ := hends _ _ htakes
      exact ⟨r, _, _, next, rfl, htakes, htake⟩
    | some rule =>
      by_cases hvalue : ∃ value later, rest = (value, .operand) :: later
      · obtain ⟨value, later, rfl⟩ := hvalue
        have htakes : r.Takes ((value, .operand) :: later) _ later := .following hpending
        obtain ⟨next, htake⟩ := hends _ _ htakes
        exact ⟨r, _, _, next, rfl, htakes, htake⟩
      · have husage : readArgs rules s ((arg, .option f) :: rest) = .usage := by
          simp only [readArgs, hread, hpending]
          split
          · exact absurd ⟨_, _, rfl⟩ hvalue
          · rfl
        rw [husage] at h
        cases h

/-- A step of a reading: it puts values for the options of the first argument on top of whichever
values are there, and goes on with later arguments. -/
structure ReadStep (rules : OptionRules) (s : Settings) (entry : String × Shape)
    (rest : List (String × Shape)) (next : Settings) (added : List (String × Option String))
    (later : List (String × Shape)) : Prop where
  suffix : later <:+ rest
  keys : ∀ value ∈ added, value.1 ∈ entry.2.keys rules
  reads : ∀ base, readArgs rules { s with values := base } (entry :: rest) =
    readArgs rules { next with values := added ++ base } later

/-- A step that sets nothing. -/
theorem ReadStep.plain (next : Settings) (hlater : later <:+ rest)
    (hreads : ∀ base, readArgs rules { s with values := base } (entry :: rest) =
      readArgs rules { next with values := base } later) :
    ∃ next added later, ReadStep rules s entry rest next added later :=
  ⟨next, [], later, hlater, by simp, hreads⟩

theorem exists_step_operand :
    ∃ next added later, ReadStep rules s (arg, .operand) rest next added later := by
  by_cases hfree : (rules.takesOperand && s.operand.isNone) = true
  · by_cases hmark : ∃ mark later, rest = (mark, .separator) :: later
    · obtain ⟨mark, later, rfl⟩ := hmark
      apply ReadStep.plain { s with operand := some arg } (List.suffix_cons _ later)
      intro base
      simp [readArgs, hfree]
    · apply ReadStep.plain { s with operand := some arg } (List.suffix_refl rest)
      intro base
      rw [readArgs, if_pos hfree]
      exact fun mark later hrest => hmark ⟨mark, later, hrest⟩
  · apply ReadStep.plain { s with leftOver := true } (List.suffix_refl rest)
    intro base
    -- the equation of its own would ask first whether a separator follows
    rw [readArgs.eq_def]
    dsimp only
    rw [if_neg hfree]

theorem exists_step_separator :
    ∃ next added later, ReadStep rules s (arg, .separator) rest next added later := by
  by_cases hbeside : ∃ operand later, rest = (operand, .operand) :: later
  · obtain ⟨operand, later, rfl⟩ := hbeside
    by_cases hfree : (rules.takesOperand && s.operand.isNone) = true
    · apply ReadStep.plain { s with operand := some operand } (List.suffix_cons _ later)
      intro base
      simp [readArgs, hfree]
    · apply ReadStep.plain { s with leftOver := true } (List.suffix_cons _ later)
      intro base
      simp [readArgs, hfree]
  · apply ReadStep.plain { s with leftOver := true } (List.suffix_refl rest)
    intro base
    rw [readArgs]
    exact fun operand later hrest => hbeside ⟨operand, later, hrest⟩

/-- A reading that does not end with an argument makes a step there. -/
theorem exists_step (h : readArgs rules s (entry :: rest) = .run t) :
    ∃ next added later, ReadStep rules s entry rest next added later := by
  obtain ⟨arg, shape⟩ := entry
  cases shape with
  | operand => exact exists_step_operand
  | separator => exact exists_step_separator
  | unknownOption =>
    apply ReadStep.plain { s with leftOver := true } (List.suffix_refl rest)
    intro base
    simp [readArgs]
  | ambiguous => simp [readArgs] at h
  | option f =>
    obtain ⟨r, taken, later, next, hread, htakes, htake⟩ := exists_takes h
    obtain ⟨added, hadded, hover⟩ := Settings.take_over htake
    have hkeys : (Shape.option f).keys rules = r.keys := by simp [Shape.keys, hread]
    refine ⟨next, added, later, htakes.suffix, fun value hvalue => ?_, fun base => ?_⟩
    · rw [hkeys]
      exact htakes.mem_keys (hadded value hvalue)
    · exact readArgs_takes hread htakes (hover base)

/-- A reading puts values for the written options on top of whichever values are there. -/
theorem readArgs_over {shaped : List (String × Shape)} (h : readArgs rules s shaped = .run t) :
    ∃ added : List (String × Option String),
      (∀ value ∈ added, value.1 ∈ shaped.flatMap (·.2.keys rules)) ∧
      ∀ base, readArgs rules { s with values := base } shaped =
        .run { t with values := added ++ base } := by
  induction hlength : shaped.length using Nat.strongRecOn generalizing shaped s with
  | ind length ih =>
    cases shaped with
    | nil =>
      cases h
      exact ⟨[], by simp, fun base => by simp [readArgs]⟩
    | cons entry rest =>
      obtain ⟨next, first, later, hstep⟩ := exists_step h
      have hnext : readArgs rules { next with values := first ++ s.values } later = .run t := by
        rw [← hstep.reads s.values]
        exact h
      have hshorter : later.length < length := by
        have hle := hstep.suffix.length_le
        simp only [List.length_cons] at hlength
        omega
      obtain ⟨added, hadded, hover⟩ := ih later.length hshorter hnext rfl
      refine ⟨added ++ first, ?_, fun base => ?_⟩
      · intro value hvalue
        rw [List.flatMap_cons]
        rcases List.mem_append.mp hvalue with hlast | hnow
        · obtain ⟨entry, hentry, hkey⟩ := List.mem_flatMap.mp (hadded value hlast)
          have hmem := hstep.suffix.subset hentry
          exact List.mem_append_right _ (List.mem_flatMap.mpr ⟨entry, hmem, hkey⟩)
        · exact List.mem_append_left _ (hstep.keys value hnow)
      · rw [hstep.reads base, List.append_assoc]
        exact hover (first ++ base)

end Steps

section Lines

variable {rules : OptionRules} {args : List String} {settings : Settings} {job : Job}

theorem parseArgs_run_iff : parseArgs rules args = .run settings ↔
    (shapes rules args).any (·.2.isAmbiguous) = false ∧
      readArgs rules ⟨[], [], none, false⟩ (shapes rules args) = .run settings ∧
      settings.leftOver = false := by
  unfold parseArgs
  by_cases hambiguous : (shapes rules args).any (·.2.isAmbiguous) = true
  · simp [hambiguous]
  · cases hread : readArgs rules ⟨[], [], none, false⟩ (shapes rules args) with
    | run read => cases hleft : read.leftOver <;> grind
    | help => simp [hambiguous, hread]
    | usage => simp [hambiguous, hread]

theorem Job.ofArgs_run_iff : Job.ofArgs args = .run job ↔
    ∃ settings name, parseArgs compileOptions args = .run settings ∧
      settings.operand = some job.source ∧ settings.values.lookup "language" = some name ∧
      job.language = name.bind Output.Language.ofName? ∧
      job.output = (settings.values.lookup "output").join := by
  obtain ⟨source, language, output⟩ := job
  unfold Job.ofArgs
  cases hparse : parseArgs compileOptions args with
  | run settings =>
    cases hoperand : settings.operand with
    | none => simp [hoperand]
    | some operand =>
      cases hname : settings.values.lookup "language" with
      | none => simp [hoperand, hname]
      | some name =>
        simp only [hoperand, hname, Asked.run.injEq, Job.mk.injEq, Parsed.run.injEq]
        constructor
        · rintro ⟨rfl, rfl, rfl⟩
          exact ⟨settings, name, rfl, hoperand, hname, rfl, rfl⟩
        · rintro ⟨_, _, rfl, hsource, hlanguage, rfl, rfl⟩
          obtain rfl := Option.some.inj (hoperand.symm.trans hsource)
          obtain rfl := Option.some.inj (hname.symm.trans hlanguage)
          exact ⟨rfl, rfl, rfl⟩
  | help => simp
  | usage => simp

/-- The option for the output. -/
def outputRule : OptionRule := ⟨"output", ["-o", "--output"], .value, fun _ => true⟩

theorem shapeOf_output : shapeOf compileOptions "-o" = .option ⟨outputRule, "-o", none⟩ := rfl

theorem readOption_output :
    readOption compileOptions ⟨outputRule, "-o", none⟩ = some ⟨[], some outputRule⟩ := rfl

theorem lookup_eq_none_of_keys {added : List (String × Option String)} {key : String}
    {keys : List String} (hadded : ∀ entry ∈ added, entry.1 ∈ keys) (hkey : key ∉ keys) :
    added.lookup key = none := by
  rw [List.lookup_eq_none_iff]
  intro entry hentry
  have hne : key ≠ entry.1 := fun h => hkey (h ▸ hadded entry hentry)
  simpa using hne

/-- A command line sets the options that are written on it, on top of whichever values are there. -/
theorem readArgs_values
    (h : readArgs rules ⟨[], [], none, false⟩ (shapes rules args) = .run settings) :
    (∀ entry ∈ settings.values, entry.1 ∈ writtenKeys rules args) ∧
    ∀ base, readArgs rules ⟨base, [], none, false⟩ (shapes rules args) =
      .run { settings with values := settings.values ++ base } := by
  obtain ⟨added, hadded, hover⟩ := readArgs_over h
  have hvalues : settings.values = added := by
    have hsame := h.symm.trans (hover [])
    simp only [List.append_nil, Parsed.run.injEq] at hsame
    rw [hsame]
  rw [hvalues]
  exact ⟨hadded, hover⟩

/-- An option that no argument is taken for is not set. -/
theorem Job.ofArgs_unset (h : Job.ofArgs args = .run job)
    (hunset : "output" ∉ writtenKeys compileOptions args) : job.output = none := by
  obtain ⟨settings, name, hparse, -, -, -, houtput⟩ := Job.ofArgs_run_iff.mp h
  obtain ⟨-, hread, -⟩ := parseArgs_run_iff.mp hparse
  obtain ⟨hkeys, -⟩ := readArgs_values hread
  rw [houtput, lookup_eq_none_of_keys hkeys hunset]
  rfl

/-- An output in front of a command line that gives none. -/
theorem Job.ofArgs_output {value : String} (h : Job.ofArgs args = .run job)
    (hunset : "output" ∉ writtenKeys compileOptions args)
    (hvalue : shapeOf compileOptions value = .operand) :
    Job.ofArgs ("-o" :: value :: args) = .run { job with output := some value } := by
  obtain ⟨settings, name, hparse, hoperand, hlanguage, hjob, -⟩ := Job.ofArgs_run_iff.mp h
  obtain ⟨hambiguous, hread, hleft⟩ := parseArgs_run_iff.mp hparse
  obtain ⟨hkeys, hover⟩ := readArgs_values hread
  have hshapes : shapes compileOptions ("-o" :: value :: args) =
      ("-o", .option ⟨outputRule, "-o", none⟩) :: (value, .operand) ::
        shapes compileOptions args := by
    simp [shapes, shapeOf_output, hvalue]
  have hne : value ≠ separator := by
    rintro rfl
    cases hvalue
  have hsetting : outputRule.setting value = .value "output" (some value) := by
    simp [OptionRule.setting, outputRule, hne]
  have hstart : readArgs compileOptions ⟨[], [], none, false⟩
      (shapes compileOptions ("-o" :: value :: args)) =
        .run { settings with values := settings.values ++ [("output", some value)] } := by
    rw [hshapes, ← hover [("output", some value)]]
    apply readArgs_takes readOption_output (.following rfl)
    simp [hsetting, Settings.take]
  refine Job.ofArgs_run_iff.mpr ⟨_, name, parseArgs_run_iff.mpr ⟨?_, hstart, hleft⟩, hoperand, ?_,
    hjob, ?_⟩
  · simpa [hshapes, Shape.isAmbiguous] using hambiguous
  · simp [List.lookup_append, hlanguage]
  · simp [List.lookup_append, lookup_eq_none_of_keys hkeys hunset]

end Lines

end GateScript.Command
