import NoteDigest.Text.Basic

/-! # JSON values

    Numbers written with a point or an exponent are doubles, all others are integers
    of any size.  An object is the list of its members in order of first appearance. -/

namespace NoteDigest

/-- A JSON value. -/
inductive Json
  | null
  | bool (value : Bool)
  | int (value : Int)
  | real (value : Float)
  | text (value : Text)
  | list (items : List Json)
  | object (members : List (Text × Json))
  deriving Inhabited

namespace Json

/-- The members with one added: a known name keeps its place and takes the new value. -/
def putMember (name : Text) (value : Json) : List (Text × Json) → List (Text × Json)
  | [] => [(name, value)]
  | (n, v) :: rest =>
      if n = name then (n, value) :: rest else (n, v) :: putMember name value rest

/-- The value of a member; `none` when it is absent or the value is no object. -/
def member? (json : Json) (name : String) : Option Json :=
  match json with
  | .object members => members.lookup name.toList
  | _ => none

/-- The value of a member that is present and not null. -/
def given? (json : Json) (name : String) : Option Json :=
  match json.member? name with
  | none | some .null => none
  | some value => some value

/-- A text value. -/
def ofString (s : String) : Json :=
  .text s.toList

/-- An object with members in the given order. -/
def ofMembers (members : List (String × Json)) : Json :=
  .object (members.map fun (name, value) => (name.toList, value))

end Json
end NoteDigest
