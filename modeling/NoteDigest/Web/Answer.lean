import NoteDigest.Payload.Record
import NoteDigest.Summary.Build
import NoteDigest.Fault

/-! # Answers — what a request gets back -/

namespace NoteDigest

/-- A summary as JSON. -/
def Summary.json (summary : Summary) : Json :=
  .ofMembers
    [("markdown", .text summary.markdown), ("empty", .bool summary.empty),
     ("message", (summary.message.map Json.text).getD .null),
     ("fragment_count", .int summary.fragmentCount), ("document_count", .int summary.noteCount)]

/-- Settings as JSON. -/
def Settings.json (settings : Settings) : Json :=
  .ofMembers (settings.toggles.map fun (name, value) => (name, .bool value))

/-- A note as JSON, with its markdown if that is asked for. -/
def NoteRef.json (note : NoteRef) (markdown : Option Text) : Json :=
  .ofMembers
    [("path", .text note.path), ("display_name", .text note.name),
     ("markdown", (markdown.map Json.text).getD .null)]

namespace Web

/-- What an answer carries. -/
inductive Content
  | json (value : Json)
  | text (text : Text)
  /-- What is wrong with the body of the request. -/
  | issues (issues : List Payload.Issue)

/-- An answer to a request. -/
structure Answer where
  status : Nat
  content : Content

namespace Answer

/-- A request that is fulfilled. -/
def ok (value : Json) : Answer :=
  ⟨200, .json value⟩

/-- A request that is fulfilled with a page. -/
def page (text : Text) : Answer :=
  ⟨200, .text text⟩

/-- A request that is turned down for a reason. -/
def detail (status : Nat) (reason : Text) : Answer :=
  ⟨status, .json (.ofMembers [("detail", .text reason)])⟩

/-- The path names nothing. -/
def notFound : Answer :=
  .detail 404 "Not Found".toList

/-- The resource does not take the method. -/
def wrongMethod : Answer :=
  .detail 405 "Method Not Allowed".toList

/-- The path is sent on to one with another number of slashes at its end. -/
def redirect : Answer :=
  ⟨307, .text []⟩

/-- Something failed that is no fault of the request. -/
def serverFault : Answer :=
  ⟨500, .text "Internal Server Error".toList⟩

/-- The body of the request is not what it should be. -/
def invalid (issues : List Payload.Issue) : Answer :=
  ⟨422, .issues (issues.map (Payload.Issue.inside "body".toList))⟩

/-- The answer to a request for a note whose file cannot be opened; none when that is no fault
    of the request. -/
def ofNoteFault? (file : Text) (fault : Fault) : Option Answer :=
  if fault.isRefusal then some (.detail 400 fault.message)
  else if fault.isAbsence then some (.detail 404 "Note not found".toList)
  else if fault.isReading then some (.detail 422 (fault.report file))
  else none

end Answer
end Web
end NoteDigest
