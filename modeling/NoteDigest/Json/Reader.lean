import NoteDigest.Json.Basic
import NoteDigest.Number.Shortest

/-! # Reading JSON

    The reader takes the RFC 8259 grammar with three more literals, `NaN`, `Infinity`
    and `-Infinity`, as doubles.  A repeated member name keeps its first place and its
    last value.  Control characters inside strings are refused.  An escaped surrogate
    pair is one character; a surrogate that stands alone becomes U+FFFD.  Integers have a
    greatest length, and lists and objects a greatest depth.

    `parse` reads a whole text.  A reading step gives what it has read together with the
    text that remains. -/

namespace NoteDigest.Json

/-- Why a text could not be read. -/
inductive ReadFault
  | malformed
  | integerTooLong
  | tooDeep
  deriving Repr, DecidableEq

/-- The white space allowed between tokens. -/
def isSpace (c : Char) : Bool :=
  c == ' ' || c == '\t' || c == '\n' || c == '\r'

/-- The text without the white space in front. -/
def skipSpace (text : Text) : Text :=
  text.dropWhile isSpace

/-- The longest integer that is converted, in decimal digits. -/
def maxIntegerDigits : Nat := 4300

/-- The most lists and objects that may be open at once. -/
def maxDepth : Nat := 980

/-! ## Strings -/

/-- The value of a hexadecimal digit. -/
def hexValue? (c : Char) : Option Nat :=
  if c.isDigit then some (c.toNat - '0'.toNat)
  else if 'a' ≤ c && c ≤ 'f' then some (c.toNat - 'a'.toNat + 10)
  else if 'A' ≤ c && c ≤ 'F' then some (c.toNat - 'A'.toNat + 10)
  else none

/-- The number that a row of hexadecimal digits stands for. -/
def hexNumber? (digits : Text) : Option Nat :=
  digits.foldl (fun n c => do return (← n) * 16 + (← hexValue? c)) (some 0)

/-- The character an escape of one letter stands for. -/
def shortEscape? : Char → Option Char
  | '"' => some '"'
  | '\\' => some '\\'
  | '/' => some '/'
  | 'b' => some '\x08'
  | 'f' => some '\x0c'
  | 'n' => some '\n'
  | 'r' => some '\r'
  | 't' => some '\t'
  | _ => none

/-- The code units of a string up to its closing quote. -/
def stringUnits : Text → Except ReadFault (List Nat × Text)
  | [] => .error .malformed
  | '"' :: rest => .ok ([], rest)
  | '\\' :: 'u' :: a :: b :: c :: d :: rest =>
      match hexNumber? [a, b, c, d] with
      | some n => do
          let (units, rest) ← stringUnits rest
          return (n :: units, rest)
      | none => .error .malformed
  | '\\' :: c :: rest =>
      match shortEscape? c with
      | some e => do
          let (units, rest) ← stringUnits rest
          return (e.toNat :: units, rest)
      | none => .error .malformed
  | c :: rest =>
      if c.toNat < 0x20 || c == '\\' then .error .malformed
      else do
        let (units, rest) ← stringUnits rest
        return (c.toNat :: units, rest)

/-- The character of a code unit that is no half of a pair. -/
def loneUnit (n : Nat) : Char :=
  if 0xD800 ≤ n && n ≤ 0xDFFF then '\uFFFD' else Char.ofNat n

/-- Code units as characters, surrogate pairs joined. -/
def joinUnits : List Nat → Text
  | [] => []
  | [n] => [loneUnit n]
  | high :: low :: rest =>
      if 0xD800 ≤ high && high ≤ 0xDBFF && 0xDC00 ≤ low && low ≤ 0xDFFF then
        Char.ofNat (0x10000 + (high - 0xD800) * 0x400 + (low - 0xDC00)) :: joinUnits rest
      else loneUnit high :: joinUnits (low :: rest)

/-- A string whose opening quote has been read. -/
def stringRest (text : Text) : Except ReadFault (Text × Text) := do
  let (units, rest) ← stringUnits text
  return (joinUnits units, rest)

/-! ## Numbers -/

/-- The number that a row of decimal digits stands for. -/
def decimalNumber (digits : Text) : Nat :=
  digits.foldl (fun n c => n * 10 + (c.toNat - '0'.toNat)) 0

/-- A decimal fraction at the front of a text, point included; empty when there is none. -/
def fractionDigits (text : Text) : Text × Text :=
  match text with
  | '.' :: rest =>
      let digits := rest.takeWhile Char.isDigit
      if digits.isEmpty then ([], text) else (digits, rest.dropWhile Char.isDigit)
  | _ => ([], text)

/-- An exponent at the front of a text, if one is there. -/
def exponent? (text : Text) : Option (Int × Text) :=
  match text with
  | e :: rest =>
      if e == 'e' || e == 'E' then
        let (negative, rest) : Bool × Text :=
          match rest with
          | '-' :: r => (true, r)
          | '+' :: r => (false, r)
          | r => (false, r)
        let digits := rest.takeWhile Char.isDigit
        if digits.isEmpty then none
        else
          let n : Int := decimalNumber digits
          some (if negative then -n else n, rest.dropWhile Char.isDigit)
      else none
  | [] => none

/-- A number without its sign. -/
def unsignedNumber (negative : Bool) (text : Text) : Except ReadFault (Json × Text) :=
  let whole :=
    match text with
    | '0' :: _ => ['0']
    | _ => text.takeWhile Char.isDigit
  if whole.isEmpty then .error .malformed
  else
    let (decimals, afterPoint) := fractionDigits (text.drop whole.length)
    let power := exponent? afterPoint
    if decimals.isEmpty && power.isNone then
      if maxIntegerDigits < whole.length then .error .integerTooLong
      else
        let n : Int := decimalNumber whole
        .ok (.int (if negative then -n else n), afterPoint)
    else
      let (e, rest) := power.getD (0, afterPoint)
      let x := Number.ofDecimal (decimalNumber (whole ++ decimals)) (e - decimals.length)
      .ok (.real (if negative then -x else x), rest)

/-! ## Values -/

/-- The literals, each with its value. -/
def literals : List (Text × Json) :=
  [("null".toList, .null), ("true".toList, .bool true), ("false".toList, .bool false),
   ("NaN".toList, .real (0.0 / 0.0)), ("Infinity".toList, .real (1.0 / 0.0)),
   ("-Infinity".toList, .real (-1.0 / 0.0))]

/-- A literal or a number. -/
def scalar (text : Text) : Except ReadFault (Json × Text) :=
  match literals.findSome? fun (word, value) => (Text.after? word text).map (value, ·) with
  | some found => .ok found
  | none =>
      match text with
      | '-' :: rest => unsignedNumber true rest
      | _ => unsignedNumber false text

mutual

/-- A value at the front of a text, in which at most `room` lists and objects are open at
    once.  Every call spends one unit of `fuel`, and no value needs more than two per
    character. -/
def value (fuel room : Nat) (text : Text) : Except ReadFault (Json × Text) :=
  match fuel with
  | 0 => .error .malformed
  | fuel + 1 =>
      match text with
      | '"' :: rest => do
          let (t, rest) ← stringRest rest
          return (.text t, rest)
      | '[' :: rest =>
          if room = 0 then .error .tooDeep
          else
            match skipSpace rest with
            | ']' :: rest => .ok (.list [], rest)
            | rest => do
                let (items, rest) ← elements fuel (room - 1) rest
                return (.list items, rest)
      | '{' :: rest =>
          if room = 0 then .error .tooDeep
          else
            match skipSpace rest with
            | '}' :: rest => .ok (.object [], rest)
            | rest => do
                let (members, rest) ← members fuel (room - 1) [] rest
                return (.object members, rest)
      | _ => scalar text

/-- The items of a list up to its closing bracket. -/
def elements (fuel room : Nat) (text : Text) : Except ReadFault (List Json × Text) :=
  match fuel with
  | 0 => .error .malformed
  | fuel + 1 => do
      let (item, rest) ← value fuel room text
      match skipSpace rest with
      | ']' :: rest => return ([item], rest)
      | ',' :: rest => do
          let (items, rest) ← elements fuel room (skipSpace rest)
          return (item :: items, rest)
      | _ => .error .malformed

/-- The members of an object up to its closing brace, added to those before them. -/
def members (fuel room : Nat) (before : List (Text × Json)) (text : Text) :
    Except ReadFault (List (Text × Json) × Text) :=
  match fuel with
  | 0 => .error .malformed
  | fuel + 1 =>
      match text with
      | '"' :: rest => do
          let (name, rest) ← stringRest rest
          match skipSpace rest with
          | ':' :: rest => do
              let (item, rest) ← value fuel room (skipSpace rest)
              let now := putMember name item before
              match skipSpace rest with
              | '}' :: rest => return (now, rest)
              | ',' :: rest => members fuel room now (skipSpace rest)
              | _ => .error .malformed
          | _ => .error .malformed
      | _ => .error .malformed

end

/-- The value a whole text stands for. -/
def parse (text : Text) : Except ReadFault Json := do
  let (json, rest) ← value (2 * text.length + 2) maxDepth (skipSpace text)
  if (skipSpace rest).isEmpty then return json else .error .malformed

end NoteDigest.Json
