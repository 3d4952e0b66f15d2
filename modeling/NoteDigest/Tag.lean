import NoteDigest.Text.Basic
import NoteDigest.Text.Numeral

/-! # Tags — hierarchical names that mark lines

    A tag is a number sign and a path of names with slashes between them.  This file
    says

    * when one tag covers another, `Tag.covers`: a tag covers itself and its descendants,
      so `#a` covers `#a/b` but not `#ab`;
    * which tokens count as tags in a directive, `Tag.isToken`;
    * which tags stand on a line of a note, `Tag.inline`. -/

namespace NoteDigest

/-- A tag with its number sign. -/
abbrev Tag := Text

namespace Tag

/-! ## The hierarchy -/

/-- The candidate is the tag itself or a descendant of it. -/
def covers (tag candidate : Tag) : Bool :=
  candidate == tag || (tag ++ ['/']).isPrefixOf candidate

/-- One of some tags covers the candidate. -/
def anyCovers (tags : List Tag) (candidate : Tag) : Bool :=
  tags.any (covers · candidate)

/-! ## Tokens -/

/-- A token that is a tag: a number sign, then a letter, and no other number sign. -/
def isToken : Text → Bool
  | '#' :: c :: rest => Text.isLetter c && !rest.contains '#'
  | _ => false

/-! ## Tags on a line -/

/-- The characters of a tag behind its number sign. -/
def isTagChar (c : Char) : Bool :=
  Text.isWord c || c == '-' || c == '/'

/-- The characters that make a row of tag characters a tag: digits alone do not. -/
def isNameChar (c : Char) : Bool :=
  Text.isWord c && !Text.isDecimal c

/-- The tag whose number sign stands in front of a text: the longest row of tag
    characters, without the slashes at its end. -/
def atSign? (rest : Text) : Option Tag :=
  let run := rest.takeWhile isTagChar
  if run.any isNameChar then some ('#' :: Text.dropEndWhile (· == '/') run) else none

/-- The tags on a line, from left to right.  A tag starts where the line does or behind a
    blank; `free` says that the text starts at such a place. -/
def inlineFrom (free : Bool) : Text → List Tag
  | [] => []
  | c :: rest =>
      (if free && c == '#' then (atSign? rest).toList else [])
        ++ inlineFrom (Text.isBlank c) rest

/-- The tags on a line, from left to right. -/
def inline (line : Text) : List Tag :=
  inlineFrom true line

end Tag
end NoteDigest
