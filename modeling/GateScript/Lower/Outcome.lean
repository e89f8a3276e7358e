import GateScript.Lower.Error

/-!
Outcomes of steps that change a state. A step that fails keeps what it had done by then; one that
goes on forever has no state to show.
-/
namespace GateScript.Lower

inductive Outcome (σ : Type) where
  | done (state : σ)
  | failed (error : LowerError) (state : σ)
  | endless
  deriving DecidableEq, Repr

namespace Outcome

/-- Goes on after a step that is done. -/
def andThen {σ : Type} (o : Outcome σ) (step : σ → Outcome σ) : Outcome σ :=
  match o with
  | done s => step s
  | failed e s => failed e s
  | endless => endless

/-- The outcome for a part of a state, as one for the whole. -/
def map {σ τ : Type} (f : σ → τ) : Outcome σ → Outcome τ
  | done s => done (f s)
  | failed e s => failed e (f s)
  | endless => endless

/-- A change that is made unless a check fails. -/
def ofCheck {σ : Type} (check : Except LowerError (σ → σ)) (s : σ) : Outcome σ :=
  match check with
  | .ok change => done (change s)
  | .error e => failed e s

end Outcome

/-- Takes a step for every element, in order. -/
def runEach {α σ : Type} (step : α → σ → Outcome σ) : List α → σ → Outcome σ
  | [], s => .done s
  | a :: as, s => (step a s).andThen (runEach step as)

/-- Takes a step several times. -/
def runTimes {σ : Type} (step : σ → Outcome σ) : Nat → σ → Outcome σ
  | 0, s => .done s
  | n + 1, s => (step s).andThen (runTimes step n)

end GateScript.Lower
