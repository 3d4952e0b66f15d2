import NoteDigest.Payload.Issue
import NoteDigest.Json.Reader
import NoteDigest.Number.Integral

/-! # Fields — the values a payload may hold, read generously

    A truth value may also be written as the number 0 or 1 or as one of a few words; a
    count may also be written as a float without fraction or as digits in a string.  A
    text has to be a string. -/

namespace NoteDigest.Payload

/-! ## Truth values -/

/-- The words for false. -/
def falseWords : List Text :=
  ["0", "off", "f", "false", "n", "no"].map String.toList

/-- The words for true. -/
def trueWords : List Text :=
  ["1", "on", "t", "true", "y", "yes"].map String.toList

/-- The truth value that an integer stands for. -/
def truthOfInteger (n : Int) : Checked Bool :=
  if n == 0 then .ok false
  else if n == 1 then .ok true
  else .fail .boolParsing

/-- A truth value. -/
def truth : Json → Checked Bool
  | .bool b => .ok b
  | .int n => if Number.isWord64 n then truthOfInteger n else .fail .boolType
  | .real x =>
      match Number.integer? x with
      | some n => if Number.isWord64 n then truthOfInteger n else .fail .boolType
      | none => .fail .boolType
  | .text word =>
      let word := Text.asciiLower word
      if falseWords.contains word then .ok false
      else if trueWords.contains word then .ok true
      else .fail .boolParsing
  | .null | .list _ | .object _ => .fail .boolType

/-! ## Counts -/

/-- The text without the sign and the zeros in front; the last digit before a point or the
    end stays.  None when it does not start as a number. -/
def dropLeadingZeros (text : Text) : Option Text :=
  match text with
  | '0' :: rest => afterZero '0' rest
  | c :: _ => if c.isDigit || c == '-' then some text else none
  | [] => none
where
  /-- What is kept behind zeros and underscores, `last` being the last of them. -/
  afterZero (last : Char) : Text → Option Text
    | [] => some [last]
    | c :: rest =>
        if c == '0' || c == '_' then afterZero c rest
        else if c.isDigit then some (c :: rest)
        else if c == '.' then some (last :: c :: rest)
        else none

/-- The text without a point followed by zeros only; none if it has another fraction. -/
def dropZeroFraction (text : Text) : Option Text :=
  let whole := text.takeWhile (· != '.')
  match text.drop whole.length with
  | [] => some text
  | _ :: decimals => if decimals.all (· == '0') then some whole else none

/-- The text without single underscores between its characters; none if there are others. -/
def dropSingleUnderscores (text : Text) : Option Text :=
  if (Text.splitWhere (· == '_') text).any List.isEmpty then none
  else some (text.filter (· != '_'))

/-- An integer in plain decimal digits, without superfluous zeros. -/
def plainInteger? (text : Text) : Option Int :=
  let (sign, digits) : Int × Text :=
    match text with
    | '-' :: digits => (-1, digits)
    | digits => (1, digits)
  match digits with
  | [] => none
  | ['0'] => some 0
  | '0' :: _ => none
  | _ => if digits.all Char.isDigit then some (sign * Json.decimalNumber digits) else none

/-- The integer that a text stands for, with white space around it, a plus sign, zeros in front,
    single underscores between digits or a fraction of zeros. -/
def integerOfText? (text : Text) : Option Int :=
  let body := Text.trimWhiteSpace text
  match plainInteger? body with
  | some n => some n
  | none => do
      let unsigned ←
        match body with
        | '+' :: '-' :: _ => none
        | '+' :: rest => some rest
        | _ => some body
      let digits ← dropZeroFraction (← dropLeadingZeros unsigned)
      plainInteger? (← dropSingleUnderscores digits)

/-- A count from an integer. -/
def countOfInteger (n : Int) : Checked Nat :=
  if 0 ≤ n then .ok n.toNat else .fail .tooSmall

/-- A count: an integer that is not negative. -/
def count : Json → Checked Nat
  | .int n => countOfInteger n
  | .bool b => .ok (if b then 1 else 0)
  | .real x =>
      match Number.integer? x with
      | some n => if Number.isWord64 n then countOfInteger n else .fail .intParsingSize
      | none => .fail (if x.isNaN || x.isInf then .finiteNumber else .intFromFloat)
  | .text text =>
      if Json.maxIntegerDigits < text.length then .fail .intParsingSize
      else
        match integerOfText? text with
        | some n => countOfInteger n
        | none => .fail .intParsing
  | .null | .list _ | .object _ => .fail .intType

/-! ## Texts and lists -/

/-- A text. -/
def text : Json → Checked Text
  | .text t => .ok t
  | _ => .fail .textType

/-- A text that is not empty. -/
def nonemptyText (json : Json) : Checked Text :=
  match text json with
  | .ok [] => .fail .textTooShort
  | found => found

/-- A list whose items pass a check. -/
def list {α : Type} (check : Json → Checked α) : Json → Checked (List α)
  | .list items =>
      .all (items.mapIdx fun i item => (check item).inside (Text.ofNat i))
  | _ => .fail .listType

/-! ## Fields of a record -/

/-- A field that has to be there. -/
def required {α : Type} (check : Json → Checked α) (record : Json) (name : String) :
    Checked α :=
  Checked.inside name.toList <|
    match record.member? name with
    | some json => check json
    | none => .fail .missing

/-- A field with a default. -/
def withDefault {α : Type} (check : Json → Checked α) (fallback : α) (record : Json)
    (name : String) : Checked α :=
  match record.member? name with
  | some json => (check json).inside name.toList
  | none => .ok fallback

/-- A field that may be missing or null. -/
def optional {α : Type} (check : Json → Checked α) (record : Json) (name : String) :
    Checked (Option α) :=
  match record.given? name with
  | some json => Checked.inside name.toList ((check json).map some)
  | none => .ok none

/-- A value that has to be a record. -/
def record {α : Type} (check : Json → Checked α) (json : Json) : Checked α :=
  match json with
  | .object _ => check json
  | _ => .fail .recordType

end NoteDigest.Payload
