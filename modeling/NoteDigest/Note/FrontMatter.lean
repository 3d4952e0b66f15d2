import NoteDigest.Note.Scan
import NoteDigest.Yaml.Document

/-! # Front matter — the properties at the top of a note

    Between its two delimiters front matter is a YAML mapping.  Text that is no YAML, or
    no mapping, counts as empty.  A scalar that cannot be converted is a fault, however.
    The only property of interest is the one by which a note opts out of summaries.  Its
    value is written out to be looked at, and it is a fault too if it cannot be. -/

namespace NoteDigest.Note

/-- The lines before the first that closes front matter, if one does. -/
def linesToClosing? : List Text → Option (List Text)
  | [] => none
  | line :: rest =>
      if closesFrontMatter line then some [] else (linesToClosing? rest).map (line :: ·)

/-- The lines between the delimiters of front matter. -/
def frontMatterLines? : List Text → Option (List Text)
  | [] => none
  | first :: rest => if opensFrontMatter first then linesToClosing? rest else none

/-- The properties of a note, as entries of a mapping. -/
abbrev Properties := List (Yaml.Value × Yaml.Value)

/-- The properties that a YAML text gives. -/
def propertiesOf (text : Text) : Except Yaml.ConversionFault Properties :=
  match Yaml.load text with
  | .ok (.map entries) => .ok entries
  | .ok _ => .ok []
  | .error .malformed => .ok []
  | .error (.conversion cause) => .error cause

/-- The properties in the front matter of a note. -/
def properties (lines : List Text) : Except Yaml.ConversionFault Properties :=
  match frontMatterLines? lines with
  | some inner => propertiesOf (Text.unlines inner)
  | none => .ok []

/-- The property by which a note opts out of summaries. -/
def optOutProperty : Text := "exclude-tag-summary".toList

/-- Whether a value opts out: it is true, or the word in any case with blanks around it.  Any
    other value is written out, to be compared with the word. -/
def optOutOf : Yaml.Value → Except Yaml.ConversionFault Bool
  | .bool value => .ok value
  | .text word => .ok (Text.asciiLower (Text.trim word) == "true".toList)
  | value =>
      match Yaml.writingFault? Yaml.maxWrittenDepth value with
      | some cause => .error cause
      | none => .ok false

/-- Whether properties opt the note out of summaries. -/
def optOutIn (properties : Properties) : Except Yaml.ConversionFault Bool :=
  match Yaml.entry? properties optOutProperty with
  | some value => optOutOf value
  | none => .ok false

/-- The properties opt the note out of summaries. -/
def optsOut (properties : Properties) : Bool :=
  (optOutIn properties).toOption.getD false

/-- The metadata that the lines of a note hold. -/
def metadataOf (lines : List Text) : Except Yaml.ConversionFault Metadata := do
  return ⟨occurrencesIn lines, ← optOutIn (← properties lines)⟩

end NoteDigest.Note
