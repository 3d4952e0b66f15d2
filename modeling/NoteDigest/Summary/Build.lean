import NoteDigest.Summary.Provider
import NoteDigest.Selection
import NoteDigest.Fragment.Basic

/-! # Summaries — what a directive yields

    `summarize` works on notes that are all in memory.  `Provider.summary` reads notes
    from a provider: first the metadata of all, then the lines of those the query draws
    from, and no others.  It also tells which notes were tried, in order, because a
    provider may remember what it has loaded. -/

namespace NoteDigest

/-- The markdown that a query yields over notes in memory, given in the order of their
    paths. -/
def summarize (notes : List Note) (query : Query) (layout : Layout) : Text :=
  if query.isEmpty then []
  else Fragment.aggregate (query.fragments layout (query.select notes))

/-- What stands in the place of an empty summary. -/
def emptyMessage : Text :=
  "There are no blocks that match the specified tags.".toList

/-- A summary: its markdown, or the message that there is none. -/
structure Summary where
  markdown : Text := []
  empty : Bool := true
  message : Option Text := none
  fragmentCount : Nat := 0
  noteCount : Nat := 0
  deriving Repr, DecidableEq

/-- The summary that found nothing. -/
def Summary.nothing : Summary :=
  { message := some emptyMessage }

/-- The summary of some fragments from a number of notes. -/
def Summary.ofFragments (fragments : List Fragment) (notes : Nat) : Summary :=
  let markdown := Fragment.aggregate fragments
  if markdown.isEmpty then .nothing
  else
    { markdown := markdown, empty := false
      fragmentCount := fragments.length, noteCount := notes }

/-- A result and the notes that were tried on the way to it, in order. -/
structure Run (ε α : Type) where
  result : Except ε α
  /-- The notes whose metadata was asked for. -/
  probes : List NoteRef
  /-- The notes whose lines were asked for. -/
  reads : List NoteRef

/-- A run that asks for nothing. -/
def Run.pure {ε α : Type} (a : α) : Run ε α :=
  ⟨.ok a, [], []⟩

namespace Provider

variable {ε : Type}

/-- The notes without their lines, in the order of their paths. -/
def stubs (provider : Provider ε) : Except ε (List Note) := do
  loadEach (fun ref => (provider.metadata ref).map (Note.stub ref))
    (NoteRef.sort (← provider.refs))

/-- The notes whose metadata is asked for, in order. -/
def probes (provider : Provider ε) : List NoteRef :=
  match provider.refs with
  | .ok refs => triedBy provider.metadata (NoteRef.sort refs)
  | .error _ => []

/-- A note with its lines loaded. -/
def fill (provider : Provider ε) (note : Note) : Except (LoadFault ε) Note :=
  (provider.lines note.ref).map note.withLines

/-- The summary that a directive yields. -/
def summary (provider : Provider ε) (source : Text) (layout : Layout) : Run ε Summary :=
  let query := Query.ofSource source
  if query.isEmpty then Run.pure .nothing
  else
    match provider.stubs with
    | .error cause => ⟨.error cause, provider.probes, []⟩
    | .ok stubs =>
        let selected := query.select stubs
        let result := do
          let notes ← loadEach provider.fill selected
          return Summary.ofFragments (query.fragments layout notes) notes.length
        ⟨result, provider.probes, (triedBy provider.fill selected).map Note.ref⟩

end Provider
end NoteDigest
