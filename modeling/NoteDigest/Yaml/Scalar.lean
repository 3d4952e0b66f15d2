import NoteDigest.Yaml.Value
import NoteDigest.Yaml.Plain
import NoteDigest.Yaml.Fault
import NoteDigest.Text.Numeral
import NoteDigest.Text.Base64

/-! # Scalars — the value of a text of a given type

    A text of the right form can still denote nothing, such as a thirteenth month, and
    an explicit tag can ask for any type of any text.  Each converter gives the value or
    the cause why there is none. -/

namespace NoteDigest.Yaml

/-! ## Numbers -/

/-- The text without underscores. -/
def dropUnderscores (text : Text) : Text :=
  text.filter (· != '_')

/-- The sign in front of a number, and what follows it. -/
def takeSign (text : Text) : Except ConversionFault (Int × Text) :=
  match text with
  | [] => .error .emptyNumber
  | '-' :: rest => .ok (-1, rest)
  | '+' :: rest => .ok (1, rest)
  | _ => .ok (1, text)

/-- The value of a digit in any script, or of a Latin letter as a digit above nine. -/
def digitValue? (c : Char) : Option Nat :=
  if 'a' ≤ c && c ≤ 'z' then some (c.toNat - 'a'.toNat + 10)
  else if 'A' ≤ c && c ≤ 'Z' then some (c.toNat - 'A'.toNat + 10)
  else Text.decimalValue? c

/-- A row of at least one digit in a base. -/
def digitsIn? (base : Nat) (text : Text) : Option Nat :=
  if text.isEmpty then none
  else
    text.foldl (fun n c => do
      let d ← digitValue? c
      if d < base then return (← n) * base + d else none) (some 0)

/-- The letters that may announce a base behind a zero. -/
def baseLetters : Nat → List Char
  | 2 => ['b', 'B']
  | 8 => ['o', 'O']
  | 16 => ['x', 'X']
  | _ => []

/-- An integer in a base: white space around it, a sign and the base's announcement are
    allowed. -/
def integerIn (base : Nat) (text : Text) : Except ConversionFault Int :=
  let (sign, body) : Int × Text :=
    match Text.trimWhiteSpace text with
    | '-' :: rest => (-1, rest)
    | '+' :: rest => (1, rest)
    | body => (1, body)
  let digits :=
    match body with
    | '0' :: c :: rest => if (baseLetters base).contains c then rest else body
    | _ => body
  if base == 10 && maxDecimalDigits < digits.length then .error .badNumber
  else
    match digitsIn? base digits with
    | some n => .ok (sign * n)
    | none => .error .badNumber

/-- A sum in sixties: the last part counts once, the one before it sixty times. -/
def inSixties {α : Type} [Add α] [Mul α] (zero sixty one : α) (parts : List α) : α :=
  (parts.reverse.foldl (fun (sum, weight) part => (sum + part * weight, weight * sixty))
    (zero, one)).1

/-- The integer a text denotes. -/
def integer (text : Text) : Except ConversionFault Int := do
  let (sign, body) ← takeSign (dropUnderscores text)
  match body with
  | [] => throw .emptyNumber
  | ['0'] => return 0
  | '0' :: 'b' :: digits => return sign * (← integerIn 2 digits)
  | '0' :: 'x' :: digits => return sign * (← integerIn 16 digits)
  | '0' :: _ => return sign * (← integerIn 8 body)
  | _ =>
      if body.contains ':' then
        let parts ← (Text.splitWhere (· == ':') body).mapM (integerIn 10)
        return sign * inSixties 0 60 1 parts
      else return sign * (← integerIn 10 body)

/-- A decimal fraction, with white space around it and an optional sign and exponent, or one
    of the words for infinity and for no number. -/
def decimalFloat (text : Text) : Except ConversionFault Float :=
  let (negative, body) : Bool × Text :=
    match Text.trimWhiteSpace text with
    | '-' :: rest => (true, rest)
    | '+' :: rest => (false, rest)
    | body => (false, body)
  let signed (x : Float) : Float := if negative then -x else x
  let word := Text.asciiLower body
  if word == "inf".toList || word == "infinity".toList then .ok (signed (1.0 / 0.0))
  else if word == "nan".toList then .ok (0.0 / 0.0)
  else
    let whole := body.takeWhile Text.isDecimal
    let afterWhole := body.dropWhile Text.isDecimal
    let (decimals, afterDecimals) : Text × Text :=
      match afterWhole with
      | '.' :: rest => (rest.takeWhile Text.isDecimal, rest.dropWhile Text.isDecimal)
      | _ => ([], afterWhole)
    let exponent : Except ConversionFault Int :=
      match afterDecimals with
      | [] => .ok 0
      | e :: rest =>
          let (sign, digits) : Int × Text :=
            match rest with
            | '-' :: digits => (-1, digits)
            | '+' :: digits => (1, digits)
            | digits => (1, digits)
          if (e == 'e' || e == 'E') then
            match digitsIn? 10 digits with
            | some n => .ok (sign * n)
            | none => .error .badNumber
          else .error .badNumber
    match digitsIn? 10 (whole ++ decimals), exponent with
    | some n, .ok e => .ok (signed (Number.ofDecimal n (e - decimals.length)))
    | _, _ => .error .badNumber

/-- The float a text denotes. -/
def float (text : Text) : Except ConversionFault Float := do
  let (sign, body) ← takeSign (Text.asciiLower (dropUnderscores text))
  let signed (x : Float) : Float := if sign < 0 then -x else x
  if body == ".inf".toList then return signed (1.0 / 0.0)
  else if body == ".nan".toList then return 0.0 / 0.0
  else if body.contains ':' then
    let parts ← (Text.splitWhere (· == ':') body).mapM decimalFloat
    return signed (inSixties 0.0 60.0 1.0 parts)
  else return signed (← decimalFloat body)

/-! ## Dates -/

/-- The number at the front of a text: at most `width` ASCII digits. -/
def shortNumber (width : Nat) (text : Text) : Nat × Text :=
  let digits := (text.take width).takeWhile Char.isDigit
  ((digitsIn? 10 digits).getD 0, text.drop digits.length)

/-- A date whose fields are in range. -/
def validDate (year month day : Nat) : Except ConversionFault Date :=
  if 1 ≤ year && 1 ≤ month && month ≤ 12 && 1 ≤ day && day ≤ daysInMonth year month then
    .ok ⟨year, month, day⟩
  else .error .badDate

/-- The offset of a zone from UTC in minutes; it is less than a day either way. -/
def zoneOffset (text : Text) : Except ConversionFault (Option Int) :=
  match text with
  | 'Z' :: _ => .ok (some 0)
  | s :: rest =>
      if s == '+' || s == '-' then
        let (hours, rest) := shortNumber 2 rest
        let minutes := hours * 60 + (shortNumber 2 (rest.drop 1)).1
        if minutes < 1440 then .ok (some (if s == '-' then -(minutes : Int) else minutes))
        else .error .badDate
      else .ok none
  | [] => .ok none

/-- The date or the point in time that a text denotes.  A fraction of a second counts to
    six places. -/
def timestamp (text : Text) : Except ConversionFault Value := do
  if !(looksDate text || looksDateTime text) then
    -- A date alone may also have a month or a day of one digit.
    let rest := do
      let r ← digits? 4 text >>= one? (· == '-') >>= oneOrTwo? Char.isDigit
      one? (· == '-') r >>= oneOrTwo? Char.isDigit
    if !(rest.map isOver).getD false then throw .noDate
  let (year, rest) := shortNumber 4 text
  let (month, rest) := shortNumber 2 (rest.drop 1)
  let (day, rest) := shortNumber 2 (rest.drop 1)
  if isOver rest then return .date (← validDate year month day)
  let afterGap := (dateTimeGap? rest).getD rest
  let (hour, rest) := shortNumber 2 afterGap
  let (minute, rest) := shortNumber 2 (rest.drop 1)
  let (second, rest) := shortNumber 2 (rest.drop 1)
  let fraction :=
    match rest with
    | '.' :: decimals => (decimals.takeWhile Char.isDigit).take 6
    | _ => []
  let microsecond := (digitsIn? 10 fraction).getD 0 * Nat.pow 10 (6 - fraction.length)
  let offset ← zoneOffset ((skipFraction rest).dropWhile isSpaceOrTab)
  let date ← validDate year month day
  if hour < 24 && minute < 60 && second < 60 then
    return .dateTime ⟨date, hour, minute, second, microsecond, offset⟩
  else throw .badDate

/-! ## All types -/

/-- The truth value a text names. -/
def truth (text : Text) : Except ConversionFault Bool :=
  match truthWords.find? fun (word, _) => word.toList == Text.asciiLower text with
  | some (_, b) => .ok b
  | none => .error .unknownTruth

/-- The value of a scalar.  A tag that fits no scalar makes the document malformed, as
    does base 64 with a character beyond ASCII or an unfinished group. -/
def scalarValue (tag : Tag) (text : Text) : Except Fault Value :=
  let converted {α : Type} (make : α → Value) : Except ConversionFault α → Except Fault Value
    | .ok x => .ok (make x)
    | .error cause => .error (.conversion cause)
  match tag with
  | .null => .ok .null
  | .bool => converted .bool (truth text)
  | .int => converted .int (integer text)
  | .float => converted .float (float text)
  | .str => .ok (.text text)
  | .timestamp => converted id (timestamp text)
  | .binary =>
      match text.all (·.toNat < 0x80), Text.ofBase64? text with
      | true, some bytes => .ok (.bytes bytes)
      | _, _ => .error .malformed
  | _ => .error .malformed

end NoteDigest.Yaml
