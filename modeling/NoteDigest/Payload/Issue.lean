import NoteDigest.Json.Basic

/-! # Issues — what is wrong with a payload

    A payload is checked as a whole: all its issues are reported, in the order of its
    fields, each with the way from the top of the payload to the place it is about. -/

namespace NoteDigest.Payload

/-- The kinds of issues. -/
inductive IssueKind
  | missing
  | boolParsing
  | boolType
  | intParsing
  | intParsingSize
  | intFromFloat
  | intType
  | finiteNumber
  | tooSmall
  | textType
  | textTooShort
  | listType
  | recordType
  | invalidJson
  deriving Repr, DecidableEq

/-- The name an issue is reported by. -/
def IssueKind.code : IssueKind → Text
  | .missing => "missing".toList
  | .boolParsing => "bool_parsing".toList
  | .boolType => "bool_type".toList
  | .intParsing => "int_parsing".toList
  | .intParsingSize => "int_parsing_size".toList
  | .intFromFloat => "int_from_float".toList
  | .intType => "int_type".toList
  | .finiteNumber => "finite_number".toList
  | .tooSmall => "greater_than_equal".toList
  | .textType => "string_type".toList
  | .textTooShort => "string_too_short".toList
  | .listType => "tuple_type".toList
  | .recordType => "model_attributes_type".toList
  | .invalidJson => "json_invalid".toList

/-- An issue and where it is. -/
structure Issue where
  kind : IssueKind
  location : List Text
  deriving Repr, DecidableEq

/-- The location with dots between its steps. -/
def Issue.locationText (issue : Issue) : Text :=
  Text.joinWith ['.'] issue.location

/-- An issue seen from one step further out. -/
def Issue.inside (step : Text) (issue : Issue) : Issue :=
  { issue with location := step :: issue.location }

/-- A checked value, or all its issues. -/
abbrev Checked (α : Type) := Except (List Issue) α

namespace Checked

variable {α β γ : Type}

/-- A single issue at the value itself. -/
def fail (kind : IssueKind) : Checked α :=
  .error [⟨kind, []⟩]

/-- Two checked values; the issues of both are reported. -/
def both : Checked α → Checked β → Checked (α × β)
  | .ok a, .ok b => .ok (a, b)
  | .ok _, .error issues => .error issues
  | .error issues, .ok _ => .error issues
  | .error first, .error second => .error (first ++ second)

/-- All of several checked values. -/
def all : List (Checked α) → Checked (List α)
  | [] => .ok []
  | a :: rest => (both a (all rest)).map fun (x, xs) => x :: xs

/-- A checked value seen from one step further out. -/
def inside (step : Text) : Checked α → Checked α
  | .ok a => .ok a
  | .error issues => .error (issues.map (Issue.inside step))

end Checked
end NoteDigest.Payload
