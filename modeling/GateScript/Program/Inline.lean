import GateScript.Program.Node

/-!
Writing out pipelines that are given by a bare name. A bare name that is declared is replaced by
its pipeline, at every depth; one that is not is kept. A name met again inside its own pipeline is
an error.
-/
namespace GateScript.Program

/-- An element of a pipeline that may be a bare name. -/
inductive LoosePart where
  | part (part : Part)
  | name (name : String)
  deriving DecidableEq, Repr

/-- The declared pipelines. Of several under one name the last counts. -/
abbrev PipelineTable := List (String × List LoosePart)

def PipelineTable.find? (table : PipelineTable) (name : String) : Option (List LoosePart) :=
  (table.reverse.find? (·.1 == name)).map (·.2)

/-- A name that its own pipeline leads to. -/
structure CyclicReference where
  name : String
  deriving DecidableEq, Repr

def CyclicReference.message (e : CyclicReference) : String :=
  "Cyclic instruction reference detected: " ++ e.name

/-- Replaces every element, and stops at the first error. -/
def inlineAll (f : LoosePart → Except CyclicReference (List LoosePart)) :
    List LoosePart → Except CyclicReference (List LoosePart)
  | [] => .ok []
  | p :: ps =>
    match f p with
    | .error e => .error e
    | .ok before =>
      match inlineAll f ps with
      | .error e => .error e
      | .ok after => .ok (before ++ after)

/-- Replaces one element. `active` holds the names being replaced; `depth` bounds how many more can
become active, so it never runs out before a name is met again. -/
def inlinePart (table : PipelineTable) :
    Nat → List String → LoosePart → Except CyclicReference (List LoosePart)
  | _, _, .part p => .ok [.part p]
  | depth, active, .name n =>
    if active.contains n then .error ⟨n⟩
    else
      match table.find? n with
      | none => .ok [.name n]
      | some body =>
        match depth with
        | 0 => .error ⟨n⟩
        | depth + 1 => inlineAll (inlinePart table depth (n :: active)) body

/-- Writes out a pipeline. -/
def inlineParts (table : PipelineTable) (parts : List LoosePart) :
    Except CyclicReference (List LoosePart) :=
  inlineAll (inlinePart table table.length []) parts

end GateScript.Program
