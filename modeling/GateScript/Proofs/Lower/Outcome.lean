import GateScript.Lower.Outcome

/-! Sequences of steps: what a sequence comes to, and how it can end. -/
namespace GateScript.Lower

namespace Outcome

variable {σ τ : Type}

/-- The state that an outcome shows. -/
def state? : Outcome σ → Option σ
  | done s => some s
  | failed _ s => some s
  | endless => none

/-- How an outcome ends, without the state. -/
def status (o : Outcome σ) : Outcome Unit := o.map fun _ => ()

@[simp] theorem andThen_done (s : σ) (step : σ → Outcome σ) : (done s).andThen step = step s := rfl

@[simp] theorem andThen_failed (e : LowerError) (s : σ) (step : σ → Outcome σ) :
    (failed e s).andThen step = failed e s := rfl

@[simp] theorem andThen_endless (step : σ → Outcome σ) : endless.andThen step = endless := rfl

@[simp] theorem map_done (f : σ → τ) (s : σ) : (done s).map f = done (f s) := rfl

@[simp] theorem map_failed (f : σ → τ) (e : LowerError) (s : σ) :
    (failed e s).map f = failed e (f s) := rfl

@[simp] theorem map_endless (f : σ → τ) : (endless : Outcome σ).map f = endless := rfl

@[simp] theorem andThen_done_right (o : Outcome σ) : o.andThen done = o := by cases o <;> rfl

theorem andThen_assoc (o : Outcome σ) (first second : σ → Outcome σ) :
    (o.andThen first).andThen second = o.andThen fun s => (first s).andThen second := by
  cases o <;> rfl

theorem andThen_eq_done {o : Outcome σ} {step : σ → Outcome σ} {s : σ}
    (h : o.andThen step = done s) : ∃ s₁, o = done s₁ ∧ step s₁ = done s := by
  cases o with
  | done s₁ => exact ⟨s₁, rfl, h⟩
  | failed e s₁ => simp at h
  | endless => simp at h

theorem andThen_eq_failed_iff {o : Outcome σ} {step : σ → Outcome σ} {e : LowerError} {s : σ} :
    o.andThen step = failed e s ↔
      o = failed e s ∨ ∃ s₁, o = done s₁ ∧ step s₁ = failed e s := by
  cases o <;> simp

theorem map_eq_failed_iff {f : σ → τ} {o : Outcome σ} {e : LowerError} {t : τ} :
    o.map f = failed e t ↔ ∃ s, o = failed e s ∧ f s = t := by
  cases o with
  | done s => simp
  | failed e' s =>
    rw [map_failed, failed.injEq]
    constructor
    · rintro ⟨rfl, rfl⟩
      exact ⟨s, rfl, rfl⟩
    · rintro ⟨_, h, rfl⟩
      cases h
      exact ⟨rfl, rfl⟩
  | endless => simp

theorem map_inj {f : σ → τ} (hf : Function.Injective f) {o o' : Outcome σ} :
    o.map f = o'.map f ↔ o = o' := by
  constructor
  · intro h
    cases o <;> cases o' <;> simp [hf.eq_iff] at h ⊢
    all_goals exact h
  · intro h
    rw [h]

/-- A view of the state that the next step respects can be taken before or after it. -/
theorem map_andThen {f : σ → τ} {step : σ → Outcome σ} {step' : τ → Outcome τ}
    (h : ∀ s, (step s).map f = step' (f s)) (o : Outcome σ) :
    (o.andThen step).map f = (o.map f).andThen step' := by
  cases o with
  | done s => exact h s
  | failed e s => rfl
  | endless => rfl

@[simp] theorem status_map (f : σ → τ) (o : Outcome σ) : (o.map f).status = o.status := by
  cases o <;> rfl

theorem status_eq_endless {o : Outcome σ} : o.status = endless ↔ o = endless := by
  cases o <;> simp [status]

/-- Whatever state an outcome shows has a property. -/
def Ensures (P : σ → Prop) (o : Outcome σ) : Prop := ∀ s, o.state? = some s → P s

@[simp] theorem ensures_done {P : σ → Prop} {s : σ} : (done s).Ensures P ↔ P s := by
  simp [Ensures, state?]

@[simp] theorem ensures_failed {P : σ → Prop} {e : LowerError} {s : σ} :
    (failed e s).Ensures P ↔ P s := by
  simp [Ensures, state?]

@[simp] theorem ensures_endless {P : σ → Prop} : (endless : Outcome σ).Ensures P := by
  simp [Ensures, state?]

@[simp] theorem ensures_map {P : τ → Prop} {f : σ → τ} {o : Outcome σ} :
    (o.map f).Ensures P ↔ o.Ensures fun s => P (f s) := by
  cases o <;> simp

theorem Ensures.mono {P Q : σ → Prop} {o : Outcome σ} (h : o.Ensures P) (hPQ : ∀ s, P s → Q s) :
    o.Ensures Q := fun s hs => hPQ s (h s hs)

/-- A property that both steps keep is kept by one after the other. -/
theorem Ensures.andThen {P : σ → Prop} {o : Outcome σ} {step : σ → Outcome σ} (h : o.Ensures P)
    (hstep : ∀ s, P s → (step s).Ensures P) : (o.andThen step).Ensures P := by
  cases o with
  | done s => exact hstep s (ensures_done.mp h)
  | failed e s => exact h
  | endless => exact h

theorem Ensures.ofCheck {P : σ → Prop} {check : Except LowerError (σ → σ)} {s : σ} (hs : P s)
    (hchange : ∀ change, check = .ok change → P (change s)) : (ofCheck check s).Ensures P := by
  cases check with
  | error e => exact ensures_failed.mpr hs
  | ok change => exact ensures_done.mpr (hchange change rfl)

end Outcome

open Outcome

variable {α σ τ : Type}

@[simp] theorem runEach_nil (step : α → σ → Outcome σ) : runEach step [] = done := rfl

@[simp] theorem runEach_cons (step : α → σ → Outcome σ) (a : α) (as : List α) (s : σ) :
    runEach step (a :: as) s = (step a s).andThen (runEach step as) := rfl

theorem runEach_append (step : α → σ → Outcome σ) (as bs : List α) (s : σ) :
    runEach step (as ++ bs) s = (runEach step as s).andThen (runEach step bs) := by
  induction as generalizing s with
  | nil => rfl
  | cons a as ih =>
    simp only [List.cons_append, runEach_cons, andThen_assoc]
    congr 1
    funext s
    exact ih s

theorem runEach_map {β : Type} (step : β → σ → Outcome σ) (f : α → β) (as : List α) (s : σ) :
    runEach step (as.map f) s = runEach (fun a => step (f a)) as s := by
  induction as generalizing s with
  | nil => rfl
  | cons a as ih =>
    simp only [List.map_cons, runEach_cons]
    congr 1
    funext s
    exact ih s

/-- A view of the state that every step respects can be taken before or after the sequence. -/
theorem map_runEach {f : σ → τ} {step : α → σ → Outcome σ} {step' : α → τ → Outcome τ}
    {as : List α} (h : ∀ a ∈ as, ∀ s, (step a s).map f = step' a (f s)) (s : σ) :
    (runEach step as s).map f = runEach step' as (f s) := by
  induction as generalizing s with
  | nil => rfl
  | cons a as ih =>
    have hrest : ∀ s, (runEach step as s).map f = runEach step' as (f s) :=
      ih fun b hb => h b (List.mem_cons_of_mem a hb)
    rw [runEach_cons, runEach_cons, map_andThen hrest, h a List.mem_cons_self]

theorem Ensures.runEach {P : σ → Prop} {step : α → σ → Outcome σ} {as : List α}
    (h : ∀ a ∈ as, ∀ s, P s → (step a s).Ensures P) {s : σ} (hs : P s) :
    (runEach step as s).Ensures P := by
  induction as generalizing s with
  | nil => exact ensures_done.mpr hs
  | cons a as ih =>
    refine (h a List.mem_cons_self s hs).andThen fun t ht => ?_
    exact ih (fun b hb => h b (List.mem_cons_of_mem a hb)) ht

theorem Ensures.runTimes {P : σ → Prop} {step : σ → Outcome σ}
    (h : ∀ s, P s → (step s).Ensures P) (n : Nat) {s : σ} (hs : P s) :
    (runTimes step n s).Ensures P := by
  induction n generalizing s with
  | zero => exact ensures_done.mpr hs
  | succ n ih => exact (h s hs).andThen fun t ht => ih ht

theorem runEach_total (f : α → σ → σ) (as : List α) (s : σ) :
    runEach (fun a s => done (f a s)) as s = done (as.foldl (fun s a => f a s) s) := by
  induction as generalizing s with
  | nil => rfl
  | cons a as ih => exact ih (f a s)

/-- A sequence fails where one of its steps does, after those before it are done. -/
theorem runEach_eq_failed_iff {step : α → σ → Outcome σ} {as : List α} {s s' : σ}
    {e : LowerError} :
    runEach step as s = failed e s' ↔
      ∃ before a after s₁, as = before ++ a :: after ∧ runEach step before s = done s₁ ∧
        step a s₁ = failed e s' := by
  constructor
  · intro h
    induction as generalizing s with
    | nil => simp at h
    | cons a as ih =>
      rcases andThen_eq_failed_iff.mp h with hfails | ⟨s₁, hdone, hrest⟩
      · exact ⟨[], a, as, s, rfl, rfl, hfails⟩
      · obtain ⟨before, b, after, s₂, rfl, hbefore, hfails⟩ := ih hrest
        refine ⟨a :: before, b, after, s₂, rfl, ?_, hfails⟩
        rw [runEach_cons, hdone, andThen_done, hbefore]
  · rintro ⟨before, a, after, s₁, rfl, hbefore, hfails⟩
    rw [runEach_append, hbefore, andThen_done, runEach_cons, hfails, andThen_failed]

/-- Steps that agree wherever they end come to the same as long as the sequence ends. -/
theorem runEach_congr {step step' : α → σ → Outcome σ}
    (h : ∀ a s, step a s ≠ endless → step' a s = step a s) {as : List α} {s : σ}
    (hs : runEach step as s ≠ endless) : runEach step' as s = runEach step as s := by
  induction as generalizing s with
  | nil => rfl
  | cons a as ih =>
    have ha : step a s ≠ endless := fun he => hs (by rw [runEach_cons, he, andThen_endless])
    rw [runEach_cons, runEach_cons, h a s ha]
    cases hstep : step a s with
    | done t =>
      rw [runEach_cons, hstep] at hs
      exact ih hs
    | failed e t => rfl
    | endless => rfl

theorem runTimes_eq_runEach (step : α → σ → Outcome σ) (as : List α) (n : Nat) (s : σ) :
    runTimes (runEach step as) n s = runEach step (List.replicate n as).flatten s := by
  induction n generalizing s with
  | zero => rfl
  | succ n ih =>
    simp only [runTimes, List.replicate_succ, List.flatten_cons, runEach_append]
    congr 1
    funext s
    exact ih s

theorem runEach_replicate (step : α → σ → Outcome σ) (a : α) (n : Nat) (s : σ) :
    runEach step (List.replicate n a) s = runTimes (step a) n s := by
  induction n generalizing s with
  | zero => rfl
  | succ n ih =>
    rw [List.replicate_succ, runEach_cons, runTimes]
    congr 1
    funext s
    exact ih s

/-- A view of the state that a step respects can be taken before or after all rounds. -/
theorem map_runTimes {f : σ → τ} {step : σ → Outcome σ} {step' : τ → Outcome τ}
    (h : ∀ s, (step s).map f = step' (f s)) (n : Nat) (s : σ) :
    (runTimes step n s).map f = runTimes step' n (f s) := by
  induction n generalizing s with
  | zero => rfl
  | succ n ih => rw [runTimes, runTimes, map_andThen ih, h]

/-- A step whose ending does not depend on the state it starts from. -/
def Uniform (step : σ → Outcome σ) : Prop := ∀ s s', (step s).status = (step s').status

theorem Uniform.andThen {first second : σ → Outcome σ} (h₁ : Uniform first) (h₂ : Uniform second) :
    Uniform fun s => (first s).andThen second := by
  intro s s'
  have h := h₁ s s'
  cases hs : first s <;> cases hs' : first s' <;> simp_all [status]
  exact h₂ _ _

theorem Uniform.runEach {step : α → σ → Outcome σ} (h : ∀ a, Uniform (step a)) (as : List α) :
    Uniform (runEach step as) := by
  induction as with
  | nil => exact fun _ _ => rfl
  | cons a as ih => exact (h a).andThen ih

theorem Uniform.ofCheck (check : Except LowerError (σ → σ)) : Uniform (Outcome.ofCheck check) := by
  cases check <;> exact fun _ _ => rfl

theorem Uniform.eq_endless {step : σ → Outcome σ} (h : Uniform step) {s : σ} (hs : step s = endless)
    (s' : σ) : step s' = endless := by
  rw [← status_eq_endless, ← h s s', status_eq_endless.mpr hs]

end GateScript.Lower
