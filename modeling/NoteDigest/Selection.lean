import NoteDigest.Note.Basic
import NoteDigest.Directive.Query

/-! # Selection — the notes a query draws from

    A note is selected by its metadata alone: it must not have opted out, it must carry a
    tag whose lines are wanted, and it must meet all clauses of the query. -/

namespace NoteDigest

/-- One of the occurrences is covered by the tag. -/
def carries (occurrences : List Occurrence) (tag : Tag) : Bool :=
  occurrences.any fun o => tag.covers o.tag

namespace Query

/-- The occurrences meet the clauses: one of `anyOf` is carried if there are any, all of
    `allOf` are, and none of `noneOf`. -/
def metBy (query : Query) (occurrences : List Occurrence) : Bool :=
  (query.anyOf.isEmpty || query.anyOf.any (carries occurrences))
    && query.allOf.all (carries occurrences)
    && !query.noneOf.any (carries occurrences)

/-- The query draws from a note. -/
def selects (query : Query) (note : Note) : Bool :=
  !note.optedOut && !note.occurrences.isEmpty
    && note.occurrences.any (fun o => Tag.anyCovers query.wanted o.tag)
    && query.metBy note.occurrences

/-- The notes that a query draws from, in order. -/
def select (query : Query) (notes : List Note) : List Note :=
  notes.filter query.selects

end Query
end NoteDigest
