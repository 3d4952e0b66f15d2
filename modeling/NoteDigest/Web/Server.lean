import NoteDigest.Web.Answer
import NoteDigest.Web.Page
import NoteDigest.Web.Route
import NoteDigest.Directive.Block
import NoteDigest.Json.Encoding
import NoteDigest.Workspace.Settings

/-! # The server — requests and how they are answered

    A request is routed by its path, then by its method; its body is checked; then the
    job it asks for is done on the workspace.  A job that fails, except for a note that
    cannot be opened, is answered as a fault of the server.  Requests change nothing but
    the stored settings and what vaults remember. -/

namespace NoteDigest.Web

/-- A request. -/
structure Request where
  method : Text
  path : Text
  body : Text := []
  deriving Repr, DecidableEq

/-! ## Bodies -/

/-- The JSON value in a body, or the answer that there is none. -/
def bodyJson (body : Text) : Except Answer Json :=
  let unreadable := Answer.detail 400 "There was an error parsing the body".toList
  match (Json.decode? body).map Json.parse with
  | some (.ok json) => .ok json
  | some (.error .malformed) => .error (.invalid [⟨.invalidJson, []⟩])
  | some (.error .integerTooLong) | some (.error .tooDeep) | none => .error unreadable

/-- The payload in a body, or the answer that tells what is wrong with it. -/
def payload {α : Type} (check : Json → Payload.Checked α) (body : Text) : Except Answer α := do
  if body.isEmpty then throw (.invalid [⟨.missing, []⟩])
  (Payload.record check (← bodyJson body)).mapError Answer.invalid

/-- Answers a request whose body has to pass a check. -/
def withPayload {α : Type} (check : Json → Payload.Checked α) (body : Text)
    (act : α → Job Answer) : Job Answer :=
  match payload check body with
  | .ok given => act given
  | .error answer => return answer

/-! ## Jobs -/

/-- The page of all notes. -/
def getIndex : Job Answer := do
  let vault ← Job.openVault none
  return .page (indexPage (← Job.askVault vault Vault.notes))

/-- The note that a path leads to with its text, or the answer that it cannot be opened. -/
def openNote (vault : Place) (path : Text) : Job (Except Answer (NoteRef × Text)) := do
  match ← Job.attempt (Job.askVault vault fun v fs => v.openNote fs path) with
  | .ok found => return .ok found
  | .error fault =>
      let file ← Job.askVault vault fun v fs => .ok (v.fileText fs path)
      match Answer.ofNoteFault? file fault with
      | some answer => return .error answer
      | none => throw fault

/-- A view of a note with its directives replaced by their summaries. -/
def viewNote (path : Text) (view : NoteRef → Text → Answer) : Job Answer := do
  let vault ← Job.openVault none
  match ← openNote vault path with
  | .error answer => return answer
  | .ok (note, text) =>
      let layout ← Job.storedLayout
      return view note (← Job.useVault vault fun v fs => v.expand fs text layout)

/-- The page of a note. -/
def getPage (path : Text) : Job Answer :=
  viewNote path fun note markdown => .page (notePage note (.ofText markdown))

/-- A note. -/
def getNote (path : Text) : Job Answer :=
  viewNote path fun note markdown => .ok (note.json (some markdown))

/-- The summary of a directive, in the layout given with it or else the stored one. -/
def postSummary (source : Text) (layout? : Option Layout) : Job Answer := do
  let layout ←
    match layout? with
    | some layout => pure layout
    | none => Job.storedLayout
  let vault ← Job.openVault none
  let summary ← Job.useVault vault fun v fs => v.summary fs source layout
  return .ok summary.json

/-- The block of a directive. -/
def postDirective (wanted : Text) (unwanted : Option Text) : Answer :=
  .ok (.ofMembers [("block", .text (Directive.render wanted unwanted))])

/-- All tags. -/
def getTags : Job Answer := do
  let vault ← Job.openVault none
  let tags ← Job.useVault vault Vault.tags
  return .ok (.ofMembers [("tags", .list (tags.map Json.text))])

/-- All notes, without their markdown. -/
def getNotes : Job Answer := do
  let vault ← Job.openVault none
  let notes ← Job.askVault vault Vault.notes
  return .ok (.list (notes.map (·.json none)))

/-! ## Routing -/

/-- Answers a request for a resource. -/
def answerFor (resource : Resource) (request : Request) : Job Answer :=
  let isGet := request.method == "GET".toList
  let isPost := request.method == "POST".toList
  let isPut := request.method == "PUT".toList
  match resource with
  | .index => if isGet then getIndex else return .wrongMethod
  | .page path => if isGet then getPage path else return .wrongMethod
  | .notes => if isGet then getNotes else return .wrongMethod
  | .note path => if isGet then getNote path else return .wrongMethod
  | .tags => if isGet then getTags else return .wrongMethod
  | .summary =>
      if isPost then
        withPayload Payload.summaryRequest request.body fun (source, layout?) =>
          postSummary source layout?
      else return .wrongMethod
  | .directive =>
      if isPost then
        withPayload Payload.directiveRequest request.body fun (wanted, unwanted) =>
          return postDirective wanted unwanted
      else return .wrongMethod
  | .settings =>
      if isGet then return .ok (← Job.loadSettings).json
      else if isPut then
        withPayload Payload.settingsPatch request.body fun patch =>
          return .ok (← Job.updateSettings patch).json
      else return .wrongMethod

/-- Answers a request, unless something fails that is no fault of the request. -/
def answer (request : Request) : Job Answer :=
  match Resource.ofPath? request.path with
  | some resource => answerFor resource request
  | none => return if Resource.isNearMiss request.path then .redirect else .notFound

/-- Answers a request. -/
def serve (request : Request) (workspace : Workspace) : Answer × Workspace :=
  match answer request workspace with
  | (.ok answer, after) => (answer, after)
  | (.error _, after) => (.serverFault, after)

end NoteDigest.Web
