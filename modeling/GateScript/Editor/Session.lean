import GateScript.Editor.Hover

/-! A session with an editor: the texts of its documents, and the answers to its requests. -/
namespace GateScript.Editor

/-- How the service introduces itself. -/
def serviceName : String := "spinachlang-lsp"

def serviceVersion : String := "0.2.3"

/-- The documents by their addresses, the latest text first. -/
abbrev Session := List (String × String)

def Session.text? (s : Session) (uri : String) : Option String := s.lookup uri

def Session.store (s : Session) (uri text : String) : Session := (uri, text) :: s

inductive Request where
  | opened (uri text : String)
  /-- The texts a document went through; the last one is current. -/
  | changed (uri : String) (texts : List String)
  | saved (uri : String)
  | closed (uri : String)
  | complete
  | hover (uri : String) (line offset : Nat)
  deriving DecidableEq, Repr

inductive Response where
  | published (uri : String) (diagnostics : List Diagnostic)
  | completion (entries : List Entry)
  | hover (hover : Option Hover)
  deriving DecidableEq, Repr

/-- Why a request has no answer. -/
inductive RequestError where
  /-- A change without a text. -/
  | noText
  | unknownDocument (uri : String)
  | hover (error : HoverError)
  deriving DecidableEq, Repr

/-- The text of an error, if it has one. -/
def RequestError.message : RequestError → Option String
  | .noText => some "list index out of range"
  | .unknownDocument _ => none
  | .hover .pastEnd => some "string index out of range"

/-- Answers a request about a document that is known. -/
def Session.withText (s : Session) (uri : String) (f : String → Except RequestError Response) :
    Except RequestError Response :=
  match s.text? uri with
  | some text => f text
  | none => .error (.unknownDocument uri)

/-- Answers a request. -/
def Session.answer (s : Session) : Request → Session × Except RequestError Response
  | .opened uri text => (s.store uri text, .ok (.published uri (diagnose text)))
  | .changed uri texts =>
    match texts.getLast? with
    | some text => (s.store uri text, .ok (.published uri (diagnose text)))
    | none => (s, .error .noText)
  | .saved uri => (s, s.withText uri fun text => .ok (.published uri (diagnose text)))
  | .closed uri => (s, .ok (.published uri []))
  | .complete => (s, .ok (.completion catalogue))
  | .hover uri line offset =>
    (s, s.withText uri fun text =>
      match Editor.hover text line offset with
      | .ok h => .ok (.hover h)
      | .error e => .error (.hover e))

/-- Answers requests in order. An error in one does not stop the next. -/
def Session.answerAll (s : Session) : List Request → List (Except RequestError Response)
  | [] => []
  | r :: rs =>
    let (s, response) := s.answer r
    response :: s.answerAll rs

end GateScript.Editor
