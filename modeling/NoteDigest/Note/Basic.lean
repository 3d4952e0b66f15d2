import NoteDigest.Tag

/-! # Notes — what a summary is made from

    A note is known by its path.  Its metadata, the tags with the lines they stand on and
    whether it opts out of summaries, can be had without its lines. -/

namespace NoteDigest

/-- A tag and the lines of the note it stands on, counted from 0. -/
structure Occurrence where
  tag : Tag
  first : Nat
  last : Nat
  deriving Repr, DecidableEq

/-- A tag that stands on one line. -/
def Occurrence.on (line : Nat) (tag : Tag) : Occurrence :=
  ⟨tag, line, line⟩

/-- How a note is referred to: its path in the vault, and the name it is shown by. -/
structure NoteRef where
  path : Text
  name : Text
  deriving Repr, DecidableEq

/-- Notes in the order of their paths. -/
def NoteRef.sort (refs : List NoteRef) : List NoteRef :=
  refs.mergeSort fun a b => Text.le a.path b.path

/-- What is known of a note without its lines. -/
structure Metadata where
  occurrences : List Occurrence
  optedOut : Bool
  deriving Repr, DecidableEq

/-- A note.  Its lines are empty as long as only its metadata has been read. -/
structure Note where
  path : Text
  name : Text
  lines : List Text := []
  occurrences : List Occurrence := []
  optedOut : Bool := false
  deriving Repr, DecidableEq

/-- The reference to a note. -/
def Note.ref (note : Note) : NoteRef :=
  ⟨note.path, note.name⟩

/-- A note without its lines. -/
def Note.stub (ref : NoteRef) (metadata : Metadata) : Note :=
  { path := ref.path, name := ref.name
    occurrences := metadata.occurrences, optedOut := metadata.optedOut }

/-- A note with its lines put in. -/
def Note.withLines (note : Note) (lines : List Text) : Note :=
  { note with lines := lines }

end NoteDigest
