import NoteDigest.Text.Basic
import NoteDigest.Number.Integral
import NoteDigest.Yaml.Fault

/-! # Values — what a document means

    Integers have any size.  A mapping is the list of its entries in order of first
    appearance; no two keys of it are the same.  Keys of different types can be the
    same: a truth value is also the integer 0 or 1, and integers and floats are compared
    by what they denote. -/

namespace NoteDigest.Yaml

/-- A calendar date. -/
structure Date where
  year : Nat
  month : Nat
  day : Nat
  deriving Repr, DecidableEq

/-- A date with a time of day and perhaps the zone's offset from UTC in minutes. -/
structure DateTime where
  date : Date
  hour : Nat
  minute : Nat
  second : Nat
  microsecond : Nat
  offset : Option Int
  deriving Repr, DecidableEq

/-- A value. -/
inductive Value
  | null
  | bool (value : Bool)
  | int (value : Int)
  | float (value : Float)
  | text (value : Text)
  | bytes (value : List UInt8)
  | date (value : Date)
  | dateTime (value : DateTime)
  | list (items : List Value)
  /-- A list of pairs, in order. -/
  | pairs (items : List (Value × Value))
  | set (members : List Value)
  | map (entries : List (Value × Value))
  /-- A collection inside itself. -/
  | recursive
  deriving Repr, Inhabited

/-! ## When two keys are the same -/

/-- The days before the first of a month in a year that is not a leap year. -/
def daysBeforeMonth (month : Nat) : Nat :=
  [0, 31, 59, 90, 120, 151, 181, 212, 243, 273, 304, 334].getD (month - 1) 0

/-- A leap year of the Gregorian calendar. -/
def isLeapYear (year : Nat) : Bool :=
  year % 4 == 0 && (year % 100 != 0 || year % 400 == 0)

/-- The number of days in a month. -/
def daysInMonth (year month : Nat) : Nat :=
  if month == 2 then (if isLeapYear year then 29 else 28)
  else if [4, 6, 9, 11].contains month then 30
  else 31

/-- The number of a day, counted from the first day of the year 1. -/
def Date.ordinal (d : Date) : Nat :=
  let y := d.year - 1
  y * 365 + y / 4 - y / 100 + y / 400 + daysBeforeMonth d.month
    + (if 2 < d.month && isLeapYear d.year then 1 else 0) + d.day

/-- The microseconds since the start of the year 1, by the clock on the wall. -/
def DateTime.wallClock (t : DateTime) : Int :=
  (((t.date.ordinal * 24 + t.hour) * 60 + t.minute) * 60 + t.second) * 1000000 + t.microsecond

/-- Two points in time are the same: both with a zone and equal in UTC, or both without
    one and equal on the wall clock. -/
def DateTime.same (a b : DateTime) : Bool :=
  match a.offset, b.offset with
  | none, none => a.wallClock == b.wallClock
  | some x, some y => a.wallClock - x * 60000000 == b.wallClock - y * 60000000
  | _, _ => false

/-- The integer that a number or a truth value denotes. -/
def Value.integer? : Value → Option Int
  | .bool b => some (if b then 1 else 0)
  | .int n => some n
  | .float x => Number.integer? x
  | _ => none

/-- Two scalars are the same key. -/
def Value.sameKey (a b : Value) : Bool :=
  match a.integer?, b.integer? with
  | some m, some n => m == n
  | some _, none | none, some _ => false
  | none, none =>
      match a, b with
      | .null, .null => true
      | .float x, .float y => x == y || (x.isNaN && y.isNaN)
      | .text s, .text t => s == t
      | .bytes s, .bytes t => s == t
      | .date s, .date t => s == t
      | .dateTime s, .dateTime t => s.same t
      | _, _ => false

/-- The entries with one added: a key that is there keeps its place and takes the new
    value. -/
def putEntry (key value : Value) : List (Value × Value) → List (Value × Value)
  | [] => [(key, value)]
  | (k, v) :: rest =>
      if k.sameKey key then (k, value) :: rest else (k, v) :: putEntry key value rest

/-- The value at a key that is a text. -/
def entry? (entries : List (Value × Value)) (name : Text) : Option Value :=
  (entries.find? fun (k, _) => k.sameKey (.text name)).map (·.2)

/-! ## Values that cannot be written -/

/-- The most values inside of one another that are written. -/
def maxWrittenDepth : Nat := 970

/-- An integer with more decimal digits than are read or written. -/
def isLongInteger (n : Int) : Bool :=
  Nat.pow 10 maxDecimalDigits ≤ n.natAbs

mutual

/-- Why a value cannot be written with room for so many values inside of one another.  A
    collection is written from left to right, and a pair is a value too. -/
def writingFault? : (room : Nat) → Value → Option ConversionFault
  | 0, _ => some .tooDeep
  | _ + 1, .int n => if isLongInteger n then some .badNumber else none
  | room + 1, .list items => itemsFault? room items
  | room + 1, .set members => itemsFault? room members
  | room + 1, .pairs items => entriesFault? (room - 1) items
  | room + 1, .map entries => entriesFault? room entries
  | _ + 1, _ => none

/-- What keeps some values from being written: the fault of the first that cannot be. -/
def itemsFault? (room : Nat) : List Value → Option ConversionFault
  | [] => none
  | value :: rest => (writingFault? room value).or (itemsFault? room rest)

/-- What keeps some entries from being written: the fault of the first that cannot be. -/
def entriesFault? (room : Nat) : List (Value × Value) → Option ConversionFault
  | [] => none
  | (key, value) :: rest =>
      ((writingFault? room key).or (writingFault? room value)).or (entriesFault? room rest)

end

end NoteDigest.Yaml
