import GateScript.Command.Path
import GateScript.Text.Quoted
import GateScript.Text.Utf8

/-! The files and directories below the current directory. -/
namespace GateScript.Command

/-- Files with their bytes, and directories, both by the parts of their paths. -/
structure Disk where
  /-- The full path of the current directory. -/
  current : String
  files : List (List String × List UInt8)
  directories : List (List String)
  deriving DecidableEq, Repr

/-- What a path leads to. -/
inductive Entry where
  | file (place : List String) (bytes : List UInt8)
  | directory (place : List String)
  | outside
  deriving DecidableEq, Repr

/-- Why a path leads nowhere. -/
inductive Fault where
  | missing
  | notDirectory
  | isDirectory
  | nameTooLong
  deriving DecidableEq, Repr

def Fault.text : Fault → String
  | .missing => "[Errno 2] No such file or directory"
  | .notDirectory => "[Errno 20] Not a directory"
  | .isDirectory => "[Errno 21] Is a directory"
  | .nameTooLong => "[Errno 36] File name too long"

def Fault.message (f : Fault) (p : Path) : String := f.text ++ ": " ++ Text.quoted p.text

namespace Disk

def hasDirectory (d : Disk) (place : List String) : Bool :=
  place.isEmpty || d.directories.any place.isPrefixOf ||
    d.files.any fun f => place.isPrefixOf f.1 && place ≠ f.1

/-- The directory above a place. Above the current directory nothing has a place. -/
def parent? (place : List String) : Option (List String) :=
  if place.isEmpty then none else some place.dropLast

/-- Follows a path from a directory. A part may take 255 bytes. Outside the current directory one can
only go up, which always leads to a directory; no names are known there. -/
def walk (d : Disk) : Option (List String) → List String → Except Fault Entry
  | none, [] => .ok .outside
  | some place, [] => .ok (.directory place)
  | start, part :: rest =>
    if 255 < part.utf8ByteSize then .error .nameTooLong
    else
      match start with
      | none => if part = ".." then d.walk none rest else .error .missing
      | some place =>
        if part = ".." then d.walk (parent? place) rest
        else
          match d.files.lookup (place ++ [part]) with
          | some bytes =>
            if rest.isEmpty then .ok (.file (place ++ [part]) bytes) else .error .notDirectory
          | none =>
            if d.hasDirectory (place ++ [part]) then d.walk (some (place ++ [part])) rest
            else .error .missing

/-- What a path leads to. A path takes less than 4096 bytes. -/
def find (d : Disk) (p : Path) : Except Fault Entry :=
  if 4096 ≤ p.text.utf8ByteSize then .error .nameTooLong
  else d.walk (if p.root = "" then some [] else none) p.parts

/-- Where a file would be written. -/
def placeFor (d : Disk) (p : Path) : Except Fault (List String) :=
  match d.find p with
  | .ok (.file place _) => .ok place
  | .ok _ => .error .isDirectory
  | .error .missing =>
    match d.find { p with parts := p.parts.dropLast } with
    | .ok (.directory place) => .ok (place ++ [p.name])
    | .ok _ => .error .missing
    | .error f => .error f
  | .error f => .error f

def write (d : Disk) (place : List String) (bytes : List UInt8) : Disk :=
  { d with files := (place, bytes) :: d.files.filter (·.1 ≠ place) }

/-- The full path of a place. -/
def fullPath (d : Disk) (place : List String) : String := "/".intercalate (d.current :: place)

/-- The files that are new or have changed. -/
def changes (before after : Disk) : List (List String × List UInt8) :=
  after.files.filter fun f => before.files.lookup f.1 ≠ some f.2

end Disk

end GateScript.Command
