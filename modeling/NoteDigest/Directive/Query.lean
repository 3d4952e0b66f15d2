import NoteDigest.Tag

/-! # Queries — what a directive asks for

    The body of a directive is a list of clauses: `tags:` asks for any of some tags,
    `include:` for all of them, `exclude:` for none.  A clause counts only if its value
    holds nothing but letters, ASCII digits and a few marks; of several clauses of a kind
    the last one counts. -/

namespace NoteDigest

/-- The tags asked for, by the three kinds of clauses. -/
structure Query where
  anyOf : List Tag := []
  allOf : List Tag := []
  noneOf : List Tag := []
  deriving Repr, DecidableEq

/-- The tags whose lines are wanted, each once, in order of first appearance. -/
def Query.wanted (query : Query) : List Tag :=
  (query.anyOf ++ query.allOf).eraseDups

/-- The query wants no lines. -/
def Query.isEmpty (query : Query) : Bool :=
  query.wanted.isEmpty

namespace Directive

/-- The kinds of clauses. -/
inductive Clause
  | anyOf
  | allOf
  | noneOf
  deriving Repr, DecidableEq

/-- All kinds of clauses. -/
def Clause.all : List Clause :=
  [.anyOf, .allOf, .noneOf]

/-- The word that starts a clause, with its colon. -/
def Clause.keyword : Clause → Text
  | .anyOf => "tags:".toList
  | .allOf => "include:".toList
  | .noneOf => "exclude:".toList

/-- The characters that the value of a clause may hold besides letters. -/
def valueMarks : Text := "0123456789_-/# ".toList

/-- The value of a clause: not empty, of letters, digits and marks only. -/
def isValue (content : Text) : Bool :=
  !content.isEmpty && content.all fun c => Text.isLetter c || valueMarks.contains c

/-- The tags in a value, each once, in order of first appearance. -/
def tagsIn (content : Text) : List Tag :=
  ((Text.words content).filter Tag.isToken).eraseDups

/-- The clause on a line and its tags, if the line is a clause that counts. -/
def clause? (line : Text) : Option (Clause × List Tag) :=
  let body := line.dropWhile Text.isBlank
  Clause.all.findSome? fun kind =>
    match Text.after? kind.keyword body with
    | some content => if isValue content then some (kind, tagsIn content) else none
    | none => none

end Directive

/-- The query with the tags of one kind of clause replaced. -/
def Query.put (query : Query) : Directive.Clause → List Tag → Query
  | .anyOf, tags => { query with anyOf := tags }
  | .allOf, tags => { query with allOf := tags }
  | .noneOf, tags => { query with noneOf := tags }

/-- The query after one more line. -/
def Query.addLine (query : Query) (line : Text) : Query :=
  match Directive.clause? line with
  | some (kind, tags) => query.put kind tags
  | none => query

/-- The query that the body of a directive states. -/
def Query.ofSource (source : Text) : Query :=
  (Text.lines source).foldl Query.addLine {}

end NoteDigest
