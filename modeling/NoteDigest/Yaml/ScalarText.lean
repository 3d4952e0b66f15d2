import NoteDigest.Yaml.Cursor
import NoteDigest.Yaml.Fault
import NoteDigest.Json.Reader

/-! # Scalar texts — the five ways to write a scalar

    Plain scalars, single and double quotes, and the literal and folded blocks.  Each
    reader starts at the first character of the scalar and gives the text it stands
    for together with the cursor behind it.  Loops spend one unit of `fuel` per turn;
    every turn consumes a character, so the number of remaining characters is enough. -/

namespace NoteDigest.Yaml

/-- The fuel for a loop that starts at a cursor. -/
def Cursor.fuel (c : Cursor) : Nat :=
  c.rest.length + 1

/-! ## Folding -/

/-- What a line break inside a scalar contributes: nothing but the breaks after it, or a
    space when there are none; a break that is no newline is kept. -/
def foldedBreak (first : Text) (later : Text) : Text :=
  if first != ['\n'] then first ++ later
  else if later.isEmpty then [' ']
  else later

/-! ## Quoted scalars -/

/-- The character behind a backslash and the one it stands for. -/
def escapes : List (Char × Char) :=
  [('0', '\x00'), ('a', '\x07'), ('b', '\x08'), ('t', '\t'), ('\t', '\t'), ('n', '\n'),
   ('v', '\x0b'), ('f', '\x0c'), ('r', '\r'), ('e', '\x1b'), (' ', ' '), ('"', '"'),
   ('\\', '\\'), ('/', '/'), ('N', '\x85'), ('_', '\u00a0'), ('L', '\u2028'),
   ('P', '\u2029')]

/-- How many hexadecimal digits follow an escape that names a code point. -/
def escapeWidth? : Char → Option Nat
  | 'x' => some 2
  | 'u' => some 4
  | 'U' => some 8
  | _ => none

/-- The character that stands in for one half of a surrogate pair, which is no character by
    itself: one in private use, beyond ASCII as the half is. -/
def surrogateStandIn (n : Nat) : Char :=
  Char.ofNat (0x100000 + n)

/-- The character with a code point. -/
def characterOf (n : Nat) : Except Fault Char :=
  if 0x7FFFFFFF < n then .error (.conversion .escapeOverflow)
  else if 0x10FFFF < n then .error (.conversion .noCharacter)
  else if 0xD800 ≤ n && n < 0xE000 then .ok (surrogateStandIn n)
  else .ok (Char.ofNat n)

/-- The breaks of empty lines inside quotes.  A document marker may not stand there. -/
def quotedBreaks : (fuel : Nat) → Cursor → Except Fault (Text × Cursor)
  | 0, _ => .error .malformed
  | fuel + 1, c =>
      if c.atAnyMarker then .error .malformed
      else
        let c := c.skipWhile fun ch => ch == ' ' || ch == '\t'
        match c.lineBreak with
        | ([], c) => .ok ([], c)
        | (first, c) => do
            let (more, c) ← quotedBreaks fuel c
            return (first ++ more, c)

/-- White space inside quotes: kept within a line, folded around a line break. -/
def quotedSpace (c : Cursor) : Except Fault (Text × Cursor) :=
  let (blanks, c) := c.span fun ch => ch == ' ' || ch == '\t'
  if c.peek == endMark then .error .malformed
  else
    match c.lineBreak with
    | ([], c) => .ok (blanks, c)
    | (first, c) => do
        let (later, c) ← quotedBreaks c.fuel c
        return (foldedBreak first later, c)

/-- An escape whose backslash has been read. -/
def escapeSequence (c : Cursor) : Except Fault (Text × Cursor) :=
  let ch := c.peek
  match escapes.lookup ch, escapeWidth? ch with
  | some meaning, _ => .ok ([meaning], c.next)
  | none, some width =>
      let c := c.next
      let digits := c.rest.take width
      match digits.length == width, Json.hexNumber? digits with
      | true, some n => do return ([← characterOf n], c.skip width)
      | _, _ => .error .malformed
  | none, none =>
      if isBreak ch then quotedBreaks c.fuel c.lineBreak.2
      else .error .malformed

/-- The characters inside quotes up to the next white space or the closing quote. -/
def quotedRun (double : Bool) : (fuel : Nat) → Cursor → Except Fault (Text × Cursor)
  | 0, _ => .error .malformed
  | fuel + 1, c => do
      let (run, c) := c.span fun ch =>
        !(ch == '\'' || ch == '"' || ch == '\\' || isGapOrEnd ch)
      let ch := c.peek
      let step : Option (Text × Cursor) ←
        if !double && ch == '\'' && c.peekAt 1 == '\'' then pure (some (['\''], c.skip 2))
        else if (double && ch == '\'') || (!double && (ch == '"' || ch == '\\')) then
          pure (some ([ch], c.next))
        else if double && ch == '\\' then some <$> escapeSequence c.next
        else pure none
      match step with
      | none => return (run, c)
      | some (piece, c) => do
          let (more, c) ← quotedRun double fuel c
          return (run ++ piece ++ more, c)

/-- The rest of a quoted scalar, up to its closing quote. -/
def quotedRest (double : Bool) : (fuel : Nat) → Cursor → Except Fault (Text × Cursor)
  | 0, _ => .error .malformed
  | fuel + 1, c =>
      if c.peek == (if double then '"' else '\'') then .ok ([], c.next)
      else do
        let (space, c) ← quotedSpace c
        let (run, c) ← quotedRun double c.fuel c
        let (more, c) ← quotedRest double fuel c
        return (space ++ run ++ more, c)

/-- A quoted scalar. -/
def quotedScalar (double : Bool) (c : Cursor) : Except Fault (Text × Cursor) := do
  let (run, c) ← quotedRun double c.next.fuel c.next
  let (more, c) ← quotedRest double c.fuel c
  return (run ++ more, c)

/-! ## Plain scalars -/

/-- The breaks of empty lines in a plain scalar; `none` before a document marker, where
    the scalar ends. -/
def plainBreaks : (fuel : Nat) → Cursor → Option Text × Cursor
  | 0, c => (none, c)
  | fuel + 1, c =>
      if c.peek == ' ' then plainBreaks fuel c.next
      else
        match c.lineBreak with
        | ([], c) => (some [], c)
        | (first, c) =>
            if c.atAnyMarker then (none, c)
            else
              let (more, c) := plainBreaks fuel c
              (more.map (first ++ ·), c)

/-- White space after a run of a plain scalar: the text it contributes if the scalar goes
    on, whether a line break was passed, and the cursor behind it. -/
def plainSpace (c : Cursor) : Text × Bool × Cursor :=
  let (blanks, c) := c.span (· == ' ')
  match c.lineBreak with
  | ([], c) => (blanks, false, c)
  | (first, c) =>
      if c.atAnyMarker then ([], true, c)
      else
        match plainBreaks c.fuel c with
        | (none, c) => ([], true, c)
        | (some later, c) => (foldedBreak first later, true, c)

/-- The end of a run of a plain scalar lies at `rest`. -/
def endsPlainRun (flow : Bool) (rest : Text) : Bool :=
  match rest with
  | [] => true
  | ch :: later =>
      let after := later.headD endMark
      isGapOrEnd ch
        || (ch == ':' && (isGapOrEnd after || (flow && [',', '[', ']', '{', '}'].contains after)))
        || (flow && [',', '?', '[', ']', '{', '}'].contains ch)

/-- The length of the run of a plain scalar at the front of a text. -/
def plainRunLength (flow : Bool) : Text → Nat
  | [] => 0
  | ch :: rest => if endsPlainRun flow (ch :: rest) then 0 else plainRunLength flow rest + 1

/-- The runs of a plain scalar, `space` being the text between the last run and the next.
    The scalar goes on only in columns from `indent` on, except in flow collections.
    The flag tells whether the white space behind the last run holds a line break. -/
def plainRuns (flow : Bool) (indent : Int) :
    (fuel : Nat) → (space : Text) → (broken : Bool) → Cursor → Text × Bool × Cursor
  | 0, _, broken, c => ([], broken, c)
  | fuel + 1, space, broken, c =>
      let length := if c.peek == '#' then 0 else plainRunLength flow c.rest
      if length == 0 then ([], broken, c)
      else
        let run := c.rest.take length
        let (later, broken, c) := plainSpace (c.skip length)
        if later.isEmpty || c.peek == '#' || (!flow && (c.column : Int) < indent) then
          (space ++ run, broken, c)
        else
          let (more, broken, c) := plainRuns flow indent fuel later broken c
          (space ++ run ++ more, broken, c)

/-- A plain scalar, and whether a line break was passed behind its last run. -/
def plainScalar (flow : Bool) (indent : Int) (c : Cursor) : Text × Bool × Cursor :=
  plainRuns flow indent c.fuel [] false c

/-! ## Block scalars -/

/-- What becomes of the line breaks at the end of a block scalar. -/
inductive Chomping
  | strip
  | clip
  | keep
  deriving Repr, DecidableEq

/-- The chomping that a sign asks for. -/
def chompingSign? : Char → Option Chomping
  | '+' => some .keep
  | '-' => some .strip
  | _ => none

/-- An indentation indicator: a digit from 1 to 9. -/
def indentDigit (c : Cursor) : Except Fault (Option Nat × Cursor) :=
  let ch := c.peek
  if ch == '0' then .error .malformed
  else if ch.isDigit then .ok (some (ch.toNat - '0'.toNat), c.next)
  else .ok (none, c)

/-- The indicators of a block scalar, in either order, and the rest of their line. -/
def blockHeader (c : Cursor) : Except Fault (Chomping × Option Nat × Cursor) := do
  let (chomping, increment, c) ← show Except Fault (Option Chomping × Option Nat × Cursor) from
    match chompingSign? c.peek with
    | some sign => do
        let (increment, c) ← indentDigit c.next
        return (some sign, increment, c)
    | none => do
        match ← indentDigit c with
        | (some n, c) =>
            match chompingSign? c.peek with
            | some sign => return (some sign, some n, c.next)
            | none => return (none, some n, c)
        | (none, c) => return (none, none, c)
  if !isSpaceOrEnd c.peek then throw .malformed
  let c := c.skipComment
  if !isBreakOrEnd c.peek then throw .malformed
  return (chomping.getD .clip, increment, c.lineBreak.2)

/-- The empty lines in front of a block scalar, and the deepest column they reach. -/
def leadingBreaks : (fuel : Nat) → (deepest : Nat) → Cursor → Text × Nat × Cursor
  | 0, deepest, c => ([], deepest, c)
  | fuel + 1, deepest, c =>
      if c.peek == ' ' then
        let c := c.next
        leadingBreaks fuel (max deepest c.column) c
      else
        match c.lineBreak with
        | ([], c) => ([], deepest, c)
        | (first, c) =>
            let (more, deepest, c) := leadingBreaks fuel deepest c
            (first ++ more, deepest, c)

/-- The cursor behind the indentation of a line, `indent` columns at most. -/
def skipIndent (indent : Nat) (c : Cursor) : Cursor :=
  c.skip (min (indent - c.column) (c.rest.takeWhile (· == ' ')).length)

/-- The empty lines between two lines of a block scalar. -/
def blockBreaks (indent : Nat) : (fuel : Nat) → Cursor → Text × Cursor
  | 0, c => ([], c)
  | fuel + 1, c =>
      let c := skipIndent indent c
      match c.lineBreak with
      | ([], c) => ([], c)
      | (first, c) =>
          let (more, c) := blockBreaks indent fuel c
          (first ++ more, c)

/-- The lines of a block scalar from the cursor on, `breaks` being the empty lines before.
    A folded newline between two lines that start with no white space becomes a space. -/
def blockLines (folded : Bool) (chomping : Chomping) (indent : Nat) :
    (fuel : Nat) → (last : Text) → (breaks : Text) → Cursor → Text × Cursor
  | 0, _, _, c => ([], c)
  | fuel + 1, last, breaks, c =>
      if c.column == indent && c.peek != endMark then
        let flush := c.peek != ' ' && c.peek != '\t'
        let (row, c) := c.span (!isBreakOrEnd ·)
        let (ending, c) := c.lineBreak
        let (later, c) := blockBreaks indent c.fuel c
        if c.column == indent && c.peek != endMark then
          let joint :=
            if folded && ending == ['\n'] && flush && c.peek != ' ' && c.peek != '\t' then
              if later.isEmpty then [' '] else []
            else ending
          let (more, c) := blockLines folded chomping indent fuel ending later c
          (breaks ++ row ++ joint ++ more, c)
        else
          let tail :=
            match chomping with
            | .strip => []
            | .clip => ending
            | .keep => ending ++ later
          (breaks ++ row ++ tail, c)
      else
        let tail :=
          match chomping with
          | .strip => []
          | .clip => last
          | .keep => last ++ breaks
        (tail, c)

/-- A literal or folded block scalar inside a collection indented by `parent` columns. -/
def blockScalar (folded : Bool) (parent : Int) (c : Cursor) : Except Fault (Text × Cursor) := do
  let (chomping, increment, c) ← blockHeader c.next
  let least := (max 1 (parent + 1)).toNat
  let (breaks, indent, c) :=
    match increment with
    | some n =>
        let indent := least + n - 1
        let (breaks, c) := blockBreaks indent c.fuel c
        (breaks, indent, c)
    | none =>
        let (breaks, deepest, c) := leadingBreaks c.fuel 0 c
        (breaks, max least deepest, c)
  return blockLines folded chomping indent c.fuel [] breaks c

end NoteDigest.Yaml
