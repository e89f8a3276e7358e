import GateScript.Lower.Scope

/-!
Pipelines as flat lists of gate calls.

A named pipeline stands for its parts, in reverse if it is run backwards. Names are looked up when
they are reached, so the calls before a name that cannot be expanded are run, and a pipeline that
leads back to itself goes on forever unless one of its calls fails.
-/
namespace GateScript.Lower

open Program

/-- Why an expansion stops. -/
inductive Stop where
  | unknownName (name : String)
  | notPipeline (name : String)
  | endless
  deriving DecidableEq, Repr

/-- The gate calls of a pipeline, up to a point where it cannot go on. -/
structure Expansion where
  calls : List GateCall
  stop : Option Stop
  deriving DecidableEq, Repr

/-- Expands parts one after the other, up to the first that stops. -/
def expandEach (expand : Part → Expansion) : List Part → Expansion
  | [] => ⟨[], none⟩
  | p :: ps =>
    match expand p with
    | ⟨calls, some stop⟩ => ⟨calls, some stop⟩
    | ⟨calls, none⟩ =>
      let rest := expandEach expand ps
      ⟨calls ++ rest.calls, rest.stop⟩

/-- Expands one part. `depth` bounds how many names may be open at once. -/
def expandPart (scope : Scope) : Nat → Part → Expansion
  | _, .gate call => ⟨[call], none⟩
  | depth, .named r =>
    match scope.find? r.name with
    | none => ⟨[], some (.unknownName r.name)⟩
    | some (.pipeline parts) =>
      match depth with
      | 0 => ⟨[], some .endless⟩
      | depth + 1 =>
        expandEach (expandPart scope depth) (if r.reversed then parts.reverse else parts)
    | some _ => ⟨[], some (.notPipeline r.name)⟩

/-- Expands a pipeline. A declared name can be open forwards and backwards; once more names are
open than that, one of them is open twice and the pipeline has no end. -/
def expand (scope : Scope) (parts : List Part) : Expansion :=
  expandEach (expandPart scope (2 * scope.length)) parts

end GateScript.Lower
