import NoteDigest.Note.Basic
import NoteDigest.Directive.Query

/-! # Fragments — single lines taken from notes

    Every occurrence of a wanted tag gives one fragment: the line it stands on, followed
    by a link back to the note, and wrapped in a callout, as the layout asks.  The link
    goes to the block anchor at the end of the line if there is one (`^anchor`), and is
    shown by the first bold run of the line if there is one. -/

namespace NoteDigest

/-- What is put around the line of a fragment. -/
structure Layout where
  link : Bool := true
  callout : Bool := true
  deriving Repr, DecidableEq

/-- A piece of a summary and the tag it is sorted by. -/
structure Fragment where
  text : Text
  tag : Tag
  deriving Repr, DecidableEq

/-- The lines of a note on which wanted tags start, one for each occurrence.  Occurrences
    behind the end of the note give none. -/
def Note.excerpts (note : Note) (wanted : List Tag) : List (Text × Tag) :=
  note.occurrences.filterMap fun o =>
    if Tag.anyCovers wanted o.tag then
      note.lines[o.first]?.map fun line => (line, o.tag)
    else none

namespace Fragment

/-! ## Anchors -/

/-- The characters up to the next newline, if no caret stands before it. -/
def toNewline? : Text → Option Text
  | [] => none
  | c :: rest =>
      if c == '\n' then some []
      else if c == '^' then none
      else (toNewline? rest).map (c :: ·)

/-- The name of an anchor whose caret stands in front of a text: one character that is no
    caret, and what follows up to the next newline. -/
def anchorName? : Text → Option Text
  | [] => none
  | c :: rest => if c == '^' then none else (toNewline? rest).map (c :: ·)

/-- The first block anchor of a text, trimmed. -/
def anchor? : Text → Option Text
  | [] => none
  | c :: rest =>
      if c == '^' then
        match anchorName? rest with
        | some name => some (Text.trim name)
        | none => anchor? rest
      else anchor? rest

/-! ## Bold runs -/

/-- The text up to the next star, if it is not empty and a second star follows. -/
def toStars? (text : Text) : Option Text :=
  let run := text.takeWhile (· != '*')
  if !run.isEmpty && "**".toList.isPrefixOf (text.dropWhile (· != '*')) then some run else none

/-- The first bold run of a text, trimmed. -/
def bold? : Text → Option Text
  | [] => none
  | c :: rest =>
      match c, rest with
      | '*', '*' :: inner =>
          match toStars? inner with
          | some run => some (Text.trim run)
          | none => bold? rest
      | _, _ => bold? rest

/-! ## Layout -/

/-- The text, unless it is missing or empty. -/
def nonempty? : Option Text → Option Text
  | some (c :: rest) => some (c :: rest)
  | _ => none

/-- The link from a fragment back to its note. -/
def sourceLink (text : Text) (note : NoteRef) : Text :=
  let anchor? := nonempty? (anchor? text)
  let target :=
    match anchor? with
    | some anchor => note.path ++ ['#', '^'] ++ anchor
    | none => note.path
  let shown :=
    match nonempty? (bold? text), anchor? with
    | some bold, _ => bold
    | none, some anchor => note.name ++ ['=', '>'] ++ anchor
    | none, none => note.name
  "Source: **[[".toList ++ target ++ ['|'] ++ shown ++ "]]**\n".toList

/-- A line of a callout. -/
def quoteLine (line : Text) : Text :=
  ['>', ' '] ++ line ++ ['\n']

/-- The text as a callout under a title. -/
def callout (text title : Text) : Text :=
  quoteLine (['[', '!'] ++ title ++ [']']) ++ (Text.lines text).flatMap quoteLine

/-- The fragment made from a line of a note and the tag it is sorted by. -/
def ofLine (line : Text) (tag : Tag) (note : NoteRef) (layout : Layout) : Fragment :=
  let row := line ++ ['\n']
  let linked := if layout.link then row ++ ['\n'] ++ sourceLink row note else row
  let wrapped := if layout.callout then callout linked note.name else linked
  ⟨wrapped ++ ['\n', '\n'], tag⟩

/-! ## Order -/

/-- Fragments in the order of their tags; those of one tag keep their order. -/
def sort (fragments : List Fragment) : List Fragment :=
  fragments.mergeSort fun a b => Text.le a.tag b.tag

/-- The texts of fragments, sorted and joined. -/
def aggregate (fragments : List Fragment) : Text :=
  (sort fragments).flatMap (·.text)

end Fragment

/-- The fragments that notes give for a query, note by note. -/
def Query.fragments (query : Query) (layout : Layout) (notes : List Note) : List Fragment :=
  notes.flatMap fun note =>
    (note.excerpts query.wanted).map fun (line, tag) => Fragment.ofLine line tag note.ref layout

end NoteDigest
