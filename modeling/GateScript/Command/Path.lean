import GateScript.Output.Language

/-! File paths in normal form: no empty parts and no parts that stay where they are. -/
namespace GateScript.Command

structure Path where
  /-- Empty for a path that is relative, else one slash or two. -/
  root : String
  parts : List String
  deriving DecidableEq, Repr

namespace Path

/-- Exactly two slashes at the front are a root of their own. -/
def rootOf : List Char → String
  | '/' :: '/' :: '/' :: _ => "/"
  | '/' :: '/' :: _ => "//"
  | '/' :: _ => "/"
  | _ => ""

/-- The pieces between slashes. -/
def pieces : List Char → List (List Char)
  | [] => [[]]
  | c :: cs =>
    if c = '/' then [] :: pieces cs
    else
      match pieces cs with
      | [] => [[c]]
      | p :: ps => (c :: p) :: ps

def ofString (s : String) : Path :=
  ⟨rootOf s.toList,
    ((pieces s.toList).filter fun p => p ≠ [] && p ≠ ['.']).map String.ofList⟩

def text (p : Path) : String :=
  if p.root = "" && p.parts.isEmpty then "." else p.root ++ "/".intercalate p.parts

/-- The last part. -/
def name (p : Path) : String := p.parts.getLast?.getD ""

/-- A name before and from its last dot on. A dot at either end does not count. -/
def splitName (name : List Char) : List Char × List Char :=
  let ending := (name.reverse.takeWhile (· ≠ '.')).reverse
  let stem := name.take (name.length - ending.length - 1)
  if ending.isEmpty || stem.isEmpty || ending.length = name.length then (name, [])
  else (stem, '.' :: ending)

def stem (p : Path) : String := String.ofList (splitName p.name.toList).1

def suffix (p : Path) : String := String.ofList (splitName p.name.toList).2

end Path

/-- Where the output goes: the path that is given, or else the name of the input with the ending of
the language, in the current directory. An empty path or a dash counts as none. -/
def pathFor (input : String) (language : Output.Language) (given : Option String) : Path :=
  match given.filter fun s => s ≠ "" && s ≠ "-" with
  | some s => .ofString s
  | none => .ofString ((Path.ofString input).stem ++ language.extension)

/-- A language that files have no ending for. -/
structure UnknownExtension where
  language : String
  deriving DecidableEq, Repr

/-- Where the output goes, for the name of a language. The language does not matter if a path is
given. -/
def outputPath (input languageName : String) (given : Option String) :
    Except UnknownExtension Path :=
  match given.filter fun s => s ≠ "" && s ≠ "-" with
  | some s => .ok (.ofString s)
  | none =>
    match Output.Language.ofName? languageName with
    | some language => .ok (pathFor input language none)
    | none => .error ⟨languageName⟩

end GateScript.Command
