import NoteDigest.Note.Basic

/-! # Pages — notes as HTML

    A page is a list of pieces: markup of its own, and texts that are filled in.  Texts are
    escaped, so nothing that stands in a note can be taken for markup. -/

namespace NoteDigest.Web

/-! ## Pieces -/

/-- The entity that stands for a character with a meaning in markup, or the character. -/
def escapeChar : Char → Text
  | '&' => "&amp;".toList
  | '<' => "&lt;".toList
  | '>' => "&gt;".toList
  | '"' => "&#34;".toList
  | '\'' => "&#39;".toList
  | c => [c]

/-- A text as it stands in markup. -/
def escape (text : Text) : Text :=
  text.flatMap escapeChar

/-- A piece of a page. -/
inductive Piece
  | markup (source : String)
  | filled (text : Text)
  deriving Repr, DecidableEq

/-- The piece as it stands in the page. -/
def Piece.render : Piece → Text
  | .markup source => source.toList
  | .filled text => escape text

/-- A page from its pieces. -/
def renderPage (pieces : List Piece) : Text :=
  pieces.flatMap Piece.render

/-! ## The page of a note -/

/-- What the page of a note shows: markdown, or a message that there is none. -/
inductive Shown
  | markdown (text : Text)
  | message (text : Text)
  deriving Repr, DecidableEq

/-- The message in the place of a note without text. -/
def emptyNoteMessage : Text := "This note is empty.".toList

/-- What is shown of the text of a note. -/
def Shown.ofText (text : Text) : Shown :=
  if Text.isBlankText text then .message emptyNoteMessage else .markdown text

/-- The pieces of what is shown. -/
def Shown.pieces : Shown → List Piece
  | .message text =>
      [.markup "\n    <span style=\"color: var(--text-error, #c00) !important;\">",
       .filled text, .markup "</span>\n    "]
  | .markdown text =>
      [.markup "\n    <pre style=\"white-space:pre-wrap;\">", .filled text, .markup "</pre>\n    "]

/-- The pieces of the page of a note: its name as the title, and what is shown of it. -/
def notePieces (note : NoteRef) (shown : Shown) : List Piece :=
  [.markup "<!doctype html>\n<html>\n<head>\n  <meta charset=\"utf-8\"/>\n  <title>",
   .filled note.name,
   .markup "</title>\n</head>\n<body>\n  <nav><a href=\"/\">Notes</a></nav>\n  <h1>",
   .filled note.name,
   .markup "</h1>\n  <div class=\"summary\" data-base-path=\"",
   .filled note.path,
   .markup "\">\n    "]
    ++ shown.pieces ++ [.markup "\n  </div>\n</body>\n</html>"]

/-- The page of a note. -/
def notePage (note : NoteRef) (shown : Shown) : Text :=
  renderPage (notePieces note shown)

/-! ## The page of all notes -/

/-- The pieces of a note in the list of all. -/
def indexItem (note : NoteRef) : List Piece :=
  [.markup "\n    <li><a href=\"/notes/", .filled note.path, .markup "\">", .filled note.name,
   .markup "</a> <code>", .filled note.path, .markup "</code></li>\n    "]

/-- The pieces of the list of all notes. -/
def indexList : List NoteRef → List Piece
  | [] => [.markup "\n  <p>The vault is empty.</p>\n  "]
  | notes =>
      .markup "\n  <ul>\n    " :: notes.flatMap indexItem ++ [.markup "\n  </ul>\n  "]

/-- The pieces of the page that lists all notes. -/
def indexPieces (notes : List NoteRef) : List Piece :=
  [.markup "<!doctype html>\n<html>\n<head>\n  <meta charset=\"utf-8\"/>\n",
   .markup "  <title>Tag Summary</title>\n</head>\n<body>\n  <h1>Notes</h1>\n  "]
    ++ indexList notes ++ [.markup "\n</body>\n</html>"]

/-- The page that lists all notes. -/
def indexPage (notes : List NoteRef) : Text :=
  renderPage (indexPieces notes)

end NoteDigest.Web
