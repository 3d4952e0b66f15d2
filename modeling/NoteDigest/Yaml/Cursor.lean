import NoteDigest.Text.Basic

/-! # Cursors — a place in a document

    A cursor holds the characters still to be read and where they start: how many
    characters lie before, on which line, in which column.  Past the end it shows the
    NUL character, which no document contains. -/

namespace NoteDigest.Yaml

/-- The characters that end a line. -/
def isBreak (c : Char) : Bool :=
  c == '\n' || c == '\r' || c == '\x85' || c == '\u2028' || c == '\u2029'

/-- The mark that stands for the end of the document. -/
def endMark : Char := '\x00'

/-- A line break or the end of the document. -/
def isBreakOrEnd (c : Char) : Bool :=
  c == endMark || isBreak c

/-- A space, a line break or the end of the document. -/
def isSpaceOrEnd (c : Char) : Bool :=
  c == ' ' || isBreakOrEnd c

/-- A space, a tab, a line break or the end of the document. -/
def isGapOrEnd (c : Char) : Bool :=
  c == '\t' || isSpaceOrEnd c

/-- The characters that remain, and the position of the first of them. -/
structure Cursor where
  rest : Text
  index : Nat
  line : Nat
  column : Nat

namespace Cursor

/-- The start of a document. -/
def start (text : Text) : Cursor :=
  ⟨text, 0, 0, 0⟩

/-- The character `n` places ahead. -/
def peekAt (c : Cursor) (n : Nat) : Char :=
  c.rest.getD n endMark

/-- The next character. -/
def peek (c : Cursor) : Char :=
  c.peekAt 0

/-- The cursor after the next character.  CR LF counts as one line break, at its LF, and
    a byte order mark takes no column. -/
def next (c : Cursor) : Cursor :=
  match c.rest with
  | [] => c
  | ch :: rest =>
      if isBreak ch && !(ch == '\r' && rest.head? == some '\n') then
        ⟨rest, c.index + 1, c.line + 1, 0⟩
      else
        ⟨rest, c.index + 1, c.line, if ch == '\uFEFF' then c.column else c.column + 1⟩

/-- The cursor `n` characters further on. -/
def skip (c : Cursor) : Nat → Cursor
  | 0 => c
  | n + 1 => c.next.skip n

/-- The characters up to the first that does not satisfy `p`, and the cursor there. -/
def span (c : Cursor) (p : Char → Bool) : Text × Cursor :=
  let run := c.rest.takeWhile p
  (run, c.skip run.length)

/-- The cursor at the first character that does not satisfy `p`. -/
def skipWhile (c : Cursor) (p : Char → Bool) : Cursor :=
  (c.span p).2

/-- A line break as it counts in a scalar, and the cursor after it; no text and the same
    cursor when there is none.  The line and paragraph separators stand for themselves,
    every other break is a newline. -/
def lineBreak (c : Cursor) : Text × Cursor :=
  let ch := c.peek
  if ch == '\u2028' || ch == '\u2029' then ([ch], c.next)
  else if ch == '\r' && c.peekAt 1 == '\n' then (['\n'], c.skip 2)
  else if isBreak ch then (['\n'], c.next)
  else ([], c)

/-- The cursor behind spaces and a comment. -/
def skipComment (c : Cursor) : Cursor :=
  let c := c.skipWhile (· == ' ')
  if c.peek == '#' then c.skipWhile (!isBreakOrEnd ·) else c

/-- Three given characters followed by a gap: the shape of the document markers. -/
def atMarker (c : Cursor) (mark : Char) : Bool :=
  c.rest.take 3 == [mark, mark, mark] && isGapOrEnd (c.peekAt 3)

/-- A document marker of either kind. -/
def atAnyMarker (c : Cursor) : Bool :=
  c.atMarker '-' || c.atMarker '.'

end Cursor
end NoteDigest.Yaml
