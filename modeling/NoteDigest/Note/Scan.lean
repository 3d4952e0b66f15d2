import NoteDigest.Note.Basic

/-! # Scanning — the tags in the lines of a note

    Two kinds of lines carry no tags: the front matter at the top of a note, and fenced
    blocks with their fences.  A fence is a line that starts with three backticks or three
    tildes; a block ends at a fence of its own kind, or with the note. -/

namespace NoteDigest.Note

/-! ## Front matter -/

/-- The line that opens front matter, if it is the first of a note. -/
def opensFrontMatter (line : Text) : Bool :=
  Text.trim line == "---".toList

/-- A line that closes front matter. -/
def closesFrontMatter (line : Text) : Bool :=
  Text.trim line == "---".toList || Text.trim line == "...".toList

/-- The index of the first line behind the front matter; 0 when there is none. -/
def bodyStart : List Text → Nat
  | [] => 0
  | first :: rest =>
      if opensFrontMatter first then
        match rest.findIdx? closesFrontMatter with
        | some i => i + 2
        | none => 0
      else 0

/-! ## Fences -/

/-- The two kinds of fences. -/
inductive Fence
  | backticks
  | tildes
  deriving Repr, DecidableEq

/-- The fence that a line is. -/
def Fence.ofLine? (line : Text) : Option Fence :=
  let body := line.dropWhile Text.isBlank
  if "\x60\x60\x60".toList.isPrefixOf body then some .backticks
  else if "~~~".toList.isPrefixOf body then some .tildes
  else none

/-! ## Occurrences -/

/-- The tags of a line with its number. -/
def lineOccurrences (number : Nat) (line : Text) : List Occurrence :=
  (Tag.inline line).map (Occurrence.on number)

/-- The occurrences in the lines of a body from line `number` on, inside the fenced block
    `within` if one is open. -/
def occurrencesFrom : (number : Nat) → (within : Option Fence) → List Text → List Occurrence
  | _, _, [] => []
  | number, within, line :: rest =>
      match Fence.ofLine? line, within with
      | some fence, none => occurrencesFrom (number + 1) (some fence) rest
      | some fence, some opening =>
          occurrencesFrom (number + 1) (if fence = opening then none else some opening) rest
      | none, some opening => occurrencesFrom (number + 1) (some opening) rest
      | none, none => lineOccurrences number line ++ occurrencesFrom (number + 1) none rest

/-- The occurrences of tags in the lines of a note. -/
def occurrencesIn (lines : List Text) : List Occurrence :=
  occurrencesFrom (bodyStart lines) none (lines.drop (bodyStart lines))

end NoteDigest.Note
