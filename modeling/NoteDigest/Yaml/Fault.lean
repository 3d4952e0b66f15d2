/-! # Faults of a YAML document

    Two kinds are told apart, because a caller may forgive the first and not the
    second.  A document is *malformed* when its text cannot be read as one document,
    or when a node has no value at all: an unknown tag, a collection as a key, a
    scalar where a collection is due.  A *conversion* fails when a scalar has a type
    but its text does not denote a value of that type, or when collections are too deep in
    one another. -/

namespace NoteDigest.Yaml

/-- The most decimal digits of an integer that is read or written. -/
def maxDecimalDigits : Nat := 4300

/-- Why the text of a scalar is no value of its type, or a collection cannot be built. -/
inductive ConversionFault
  /-- No number has this text, or it has too many digits to be read or written. -/
  | badNumber
  /-- Nothing is left of a number once its sign and underscores are taken away. -/
  | emptyNumber
  /-- The text names neither truth value. -/
  | unknownTruth
  /-- A date or time with a field out of range. -/
  | badDate
  /-- The text does not have the form of a date. -/
  | noDate
  /-- A mapping where a date is due, with a text that would do for another scalar. -/
  | mappedDate
  /-- An escape above the last code point. -/
  | noCharacter
  /-- An escape that does not even fit into 31 bits. -/
  | escapeOverflow
  /-- More collections in one another than can be built or written. -/
  | tooDeep
  deriving Repr, DecidableEq

/-- Why a text has no value. -/
inductive Fault
  | malformed
  | conversion (cause : ConversionFault)
  deriving Repr, DecidableEq

end NoteDigest.Yaml
