import NoteDigest.Yaml.Token
import NoteDigest.Yaml.ScalarText
import NoteDigest.Text.Utf8

/-! # The lexer — from characters to tokens

    Indentation is kept as a stack of columns: a token in a deeper column opens a block
    collection, one in a shallower column closes those above it.  A mapping key is
    recognised only at the colon behind it.  Until then its place in the token list is
    remembered, one candidate for each level of flow collections, and at the colon the
    `key` token (and the start of the mapping, if it is new) is inserted there.  A
    candidate is forgotten at the end of its line and after 1024 characters. -/

namespace NoteDigest.Yaml

/-- A place where a mapping key may have started. -/
structure Candidate where
  /-- How many tokens stand before it. -/
  place : Nat
  /-- It stands where a block mapping must go on, so it has to turn out to be a key. -/
  required : Bool
  index : Nat
  line : Nat
  column : Nat
  deriving Repr

/-- The state between two tokens. -/
structure Lexer where
  cursor : Cursor
  tokens : Array Token
  /-- How many flow collections are open. -/
  flow : Nat
  /-- The column of the innermost block collection, -1 outside of any. -/
  indent : Int
  /-- The columns of the block collections around it. -/
  outer : List Int
  /-- A mapping key may start here. -/
  keyAllowed : Bool
  candidates : List (Nat × Candidate)

namespace Lexer

/-- The state at the start of a document. -/
def start (text : Text) : Lexer :=
  ⟨Cursor.start text, #[], 0, -1, [], true, []⟩

/-- A token added at the end. -/
def push (x : Lexer) (token : Token) : Lexer :=
  { x with tokens := x.tokens.push token }

/-- A token added behind the first `place` tokens. -/
def insert (x : Lexer) (place : Nat) (token : Token) : Lexer :=
  let all := x.tokens.toList
  { x with tokens := (all.take place ++ token :: all.drop place).toArray }

/-- The state behind the next `n` characters. -/
def advance (x : Lexer) (n : Nat) : Lexer :=
  { x with cursor := x.cursor.skip n }

/-- The column as an integer. -/
def column (x : Lexer) : Int :=
  x.cursor.column

/-! ## Indentation -/

/-- Closes the block collections that lie deeper than a column. -/
def unwind (x : Lexer) (column : Int) : Lexer :=
  if x.flow != 0 then x
  else go x x.outer
where
  /-- The collections still to look at are those around the innermost. -/
  go (x : Lexer) : List Int → Lexer
    | [] => x
    | around :: outer =>
        if column < x.indent then
          go { x.push .blockEnd with indent := around, outer := outer } outer
        else x

/-- Opens a block collection at a column deeper than the innermost one; tells whether
    there was need to. -/
def deepen (x : Lexer) (column : Int) : Bool × Lexer :=
  if x.indent < column then (true, { x with indent := column, outer := x.indent :: x.outer })
  else (false, x)

/-! ## Key candidates -/

/-- Gives up the candidate of the current flow level. -/
def dropCandidate (x : Lexer) : Except Fault Lexer :=
  match x.candidates.lookup x.flow with
  | some c =>
      if c.required then .error .malformed
      else .ok { x with candidates := x.candidates.filter (·.1 != x.flow) }
  | none => .ok x

/-- Makes the coming token a candidate, where keys are allowed. -/
def addCandidate (x : Lexer) : Except Fault Lexer := do
  if !x.keyAllowed then return x
  let x ← x.dropCandidate
  let candidate : Candidate :=
    { place := x.tokens.size
      required := x.flow == 0 && x.indent == x.column
      index := x.cursor.index
      line := x.cursor.line
      column := x.cursor.column }
  return { x with candidates := (x.flow, candidate) :: x.candidates }

/-- A candidate can no longer become a key at a cursor. -/
def isStale (c : Cursor) (candidate : Candidate) : Bool :=
  candidate.line != c.line || 1024 < c.index - candidate.index

/-- Forgets the candidates that can no longer become keys. -/
def dropStale (x : Lexer) : Except Fault Lexer :=
  let (stale, live) := x.candidates.partition fun (_, c) => isStale x.cursor c
  if stale.any fun (_, c) => c.required then .error .malformed
  else .ok { x with candidates := live }

/-! ## Gaps, directives and names -/

/-- Passes over spaces, comments and line breaks. -/
def skipGap : (fuel : Nat) → Lexer → Lexer
  | 0, x => x
  | fuel + 1, x =>
      let c := x.cursor.skipComment
      match c.lineBreak with
      | ([], c) => { x with cursor := c }
      | (_, c) => skipGap fuel { x with cursor := c, keyAllowed := x.keyAllowed || x.flow == 0 }

/-- The characters of anchors, directive names and tag handles. -/
def isNameChar (c : Char) : Bool :=
  c.isAlphanum || c == '-' || c == '_'

/-- A name at the cursor, which may not be empty. -/
def name (c : Cursor) : Except Fault (Text × Cursor) :=
  match c.span isNameChar with
  | ([], _) => .error .malformed
  | found => .ok found

/-- A number at the cursor. -/
def number (c : Cursor) : Except Fault (Nat × Cursor) :=
  match c.span Char.isDigit with
  | ([], _) => .error .malformed
  | (digits, c) =>
      if maxDecimalDigits < digits.length then .error (.conversion .badNumber)
      else .ok (Json.decimalNumber digits, c)

/-- The bytes of a row of percent escapes. -/
def percentBytes : (fuel : Nat) → Cursor → Except Fault (List UInt8 × Cursor)
  | 0, _ => .error .malformed
  | fuel + 1, c =>
      if c.peek == '%' then
        let digits := c.next.rest.take 2
        match digits.length == 2, Json.hexNumber? digits with
        | true, some n => do
            let (more, c) ← percentBytes fuel (c.skip 3)
            return (UInt8.ofNat n :: more, c)
        | _, _ => .error .malformed
      else .ok ([], c)

/-- The characters of a tag that stand for themselves. -/
def isTagChar (c : Char) : Bool :=
  c.isAlphanum || "-;/?:@&=+$,_.!~*'()[]".toList.contains c

/-- The text of a tag, percent escapes decoded. -/
def tagText : (fuel : Nat) → Cursor → Except Fault (Text × Cursor)
  | 0, _ => .error .malformed
  | fuel + 1, c =>
      let (run, c) := c.span isTagChar
      if c.peek == '%' then do
        let (bytes, c) ← percentBytes c.fuel c
        match Text.ofUtf8? ⟨bytes.toArray⟩ with
        | none => .error .malformed
        | some piece => do
            let (more, c) ← tagText fuel c
            return (run ++ piece ++ more, c)
      else .ok (run, c)

/-- A tag's text, which may not be empty. -/
def tagTextNonempty (c : Cursor) : Except Fault (Text × Cursor) := do
  match ← tagText c.fuel c with
  | ([], _) => .error .malformed
  | found => return found

/-- A tag handle: an exclamation mark, or a name between two of them. -/
def tagHandle (c : Cursor) : Except Fault (Text × Cursor) :=
  if c.peek != '!' then .error .malformed
  else if c.peekAt 1 == ' ' then .ok (['!'], c.next)
  else
    match c.next.span isNameChar with
    | (word, after) =>
        if after.peek == '!' then .ok ('!' :: word ++ ['!'], after.next)
        else .error .malformed

/-- A directive line whose percent sign has been read. -/
def directive (c : Cursor) : Except Fault (Token × Cursor) := do
  let (word, c) ← name c
  if !isSpaceOrEnd c.peek then throw .malformed
  let (token, c) ←
    if word == "YAML".toList then do
      let (major, c) ← number (c.skipWhile (· == ' '))
      if c.peek != '.' then throw .malformed
      let (_, c) ← number c.next
      if !isSpaceOrEnd c.peek then throw .malformed
      pure (Token.versionDirective major, c)
    else if word == "TAG".toList then do
      let (handle, c) ← tagHandle (c.skipWhile (· == ' '))
      if c.peek != ' ' then throw .malformed
      let (expansion, c) ← tagTextNonempty (c.skipWhile (· == ' '))
      if !isSpaceOrEnd c.peek then throw .malformed
      pure (Token.tagDirective handle expansion, c)
    else pure (Token.otherDirective, c.skipWhile (!isBreakOrEnd ·))
  let c := c.skipComment
  if !isBreakOrEnd c.peek then throw .malformed
  return (token, c.lineBreak.2)

/-- An anchor or a reference whose first character has been read. -/
def anchorName (c : Cursor) : Except Fault (Text × Cursor) := do
  let (word, c) ← name c
  if isGapOrEnd c.peek || "?:,]\x7d%@\x60".toList.contains c.peek then return (word, c)
  else throw .malformed

/-- A tag, at its exclamation mark. -/
def tag (c : Cursor) : Except Fault (Token × Cursor) := do
  let (token, c) ←
    if c.peekAt 1 == '<' then do
      let (suffix, c) ← tagTextNonempty (c.skip 2)
      if c.peek != '>' then throw .malformed
      pure (Token.tag none suffix, c.next)
    else if isGapOrEnd (c.peekAt 1) then pure (Token.tag none ['!'], c.next)
    else do
      let word := c.next.rest.takeWhile (!isSpaceOrEnd ·)
      let (handle, c) ← if word.contains '!' then tagHandle c else pure (['!'], c.next)
      let (suffix, c) ← tagTextNonempty c
      pure (Token.tag (some handle) suffix, c)
  if isSpaceOrEnd c.peek then return (token, c) else throw .malformed

/-! ## One token at a time -/

/-- The end of the text: everything open in block style is closed. -/
def finish (x : Lexer) : Except Fault Lexer := do
  let x ← (x.unwind (-1)).dropCandidate
  return x.push .streamEnd

/-- A document marker or directive. -/
def topLevel (x : Lexer) (token : Token) (after : Cursor) : Except Fault Lexer := do
  let x ← (x.unwind (-1)).dropCandidate
  return { x.push token with cursor := after, keyAllowed := false }

/-- The opening bracket of a flow collection. -/
def openFlow (x : Lexer) (token : Token) : Except Fault Lexer := do
  let x ← x.addCandidate
  return { (x.push token).advance 1 with flow := x.flow + 1, keyAllowed := true }

/-- The closing bracket of a flow collection. -/
def closeFlow (x : Lexer) (token : Token) : Except Fault Lexer := do
  if x.flow == 0 then throw .malformed
  let x ← x.dropCandidate
  return { (x.push token).advance 1 with flow := x.flow - 1, keyAllowed := false }

/-- The comma in a flow collection. -/
def flowEntry (x : Lexer) : Except Fault Lexer := do
  let x ← x.dropCandidate
  return { (x.push .flowEntry).advance 1 with keyAllowed := true }

/-- Opens a block collection at the current column, where one may start. -/
def openBlock (x : Lexer) (token : Token) : Except Fault Lexer :=
  if x.flow != 0 then .ok x
  else if !x.keyAllowed then .error .malformed
  else
    match x.deepen x.column with
    | (true, x) => .ok (x.push token)
    | (false, x) => .ok x

/-- The dash of a block sequence. -/
def blockEntry (x : Lexer) : Except Fault Lexer := do
  let x ← (← x.openBlock .blockSequenceStart).dropCandidate
  return { (x.push .blockEntry).advance 1 with keyAllowed := true }

/-- The question mark of an explicit key. -/
def explicitKey (x : Lexer) : Except Fault Lexer := do
  let x ← (← x.openBlock .blockMappingStart).dropCandidate
  return { (x.push .key).advance 1 with keyAllowed := x.flow == 0 }

/-- The colon between a key and its value.  The candidate of this level, if there is one,
    is the key. -/
def keyValue (x : Lexer) : Except Fault Lexer := do
  match x.candidates.lookup x.flow with
  | some candidate =>
      let x := { x with candidates := x.candidates.filter (·.1 != x.flow) }
      let x := x.insert candidate.place .key
      let x :=
        if x.flow != 0 then x
        else
          match x.deepen candidate.column with
          | (true, x) => x.insert candidate.place .blockMappingStart
          | (false, x) => x
      return { (x.push .value).advance 1 with keyAllowed := false }
  | none =>
      let x ← (← x.openBlock .blockMappingStart).dropCandidate
      return { (x.push .value).advance 1 with keyAllowed := x.flow == 0 }

/-- A node property or a quoted scalar, which may turn out to be a key. -/
def mayBeKey (x : Lexer) (read : Cursor → Except Fault (Token × Cursor)) :
    Except Fault Lexer := do
  let x ← x.addCandidate
  let (token, c) ← read x.cursor
  return { x.push token with cursor := c, keyAllowed := false }

/-- A plain scalar. -/
def plain (x : Lexer) : Except Fault Lexer := do
  let x ← x.addCandidate
  let (text, broken, c) := plainScalar (x.flow != 0) (x.indent + 1) x.cursor
  return { x.push (.scalar text true) with cursor := c, keyAllowed := broken }

/-- A block scalar. -/
def block (x : Lexer) (folded : Bool) : Except Fault Lexer := do
  let x ← x.dropCandidate
  let (text, c) ← blockScalar folded x.indent x.cursor
  return { x.push (.scalar text false) with cursor := c, keyAllowed := true }

/-- A plain scalar can start at a cursor. -/
def startsPlain (flow : Bool) (c : Cursor) : Bool :=
  let ch := c.peek
  !(isGapOrEnd ch || "-?:,[]\x7b\x7d#&*!|>'\"%@\x60".toList.contains ch)
    || (!isGapOrEnd (c.peekAt 1) && (ch == '-' || (!flow && (ch == '?' || ch == ':'))))

/-- The token at the cursor, which stands on no gap. -/
def token (x : Lexer) : Except Fault Lexer :=
  let c := x.cursor
  let inFlow := x.flow != 0
  let gapAfter := isGapOrEnd (c.peekAt 1)
  match c.peek with
  | '%' =>
      if c.column == 0 then do
        let (token, c) ← directive c.next
        x.topLevel token c
      else .error .malformed
  | '[' => x.openFlow .flowSequenceStart
  | '{' => x.openFlow .flowMappingStart
  | ']' => x.closeFlow .flowSequenceEnd
  | '}' => x.closeFlow .flowMappingEnd
  | ',' => x.flowEntry
  | '*' => x.mayBeKey fun c => do
      let (word, c) ← anchorName c.next
      return (.reference word, c)
  | '&' => x.mayBeKey fun c => do
      let (word, c) ← anchorName c.next
      return (.anchor word, c)
  | '!' => x.mayBeKey tag
  | '\'' => x.mayBeKey fun c => do
      let (text, c) ← quotedScalar false c
      return (.scalar text false, c)
  | '"' => x.mayBeKey fun c => do
      let (text, c) ← quotedScalar true c
      return (.scalar text false, c)
  | ch =>
      if ch == '-' && c.column == 0 && c.atMarker '-' then x.topLevel .documentStart (c.skip 3)
      else if ch == '.' && c.column == 0 && c.atMarker '.' then x.topLevel .documentEnd (c.skip 3)
      else if ch == '-' && gapAfter then x.blockEntry
      else if ch == '?' && (inFlow || gapAfter) then x.explicitKey
      else if ch == ':' && (inFlow || gapAfter) then x.keyValue
      else if ch == '|' && !inFlow then x.block false
      else if ch == '>' && !inFlow then x.block true
      else if startsPlain inFlow c then x.plain
      else .error .malformed

/-- The tokens from a state on.  A fault ends the list. -/
def tokensFrom : (fuel : Nat) → Lexer → Array Token
  | 0, x => x.tokens.push (.broken .malformed)
  | fuel + 1, x =>
      let next : Except Fault (Lexer × Bool) := do
        let x ← (skipGap x.cursor.fuel x).dropStale
        let x := x.unwind x.column
        if x.cursor.rest.isEmpty then return (← x.finish, true)
        else return (← x.token, false)
      match next with
      | .error fault => x.tokens.push (.broken fault)
      | .ok (x, true) => x.tokens
      | .ok (x, false) => tokensFrom fuel x

end Lexer

/-- The characters a document may hold. -/
def isPrintable (c : Char) : Bool :=
  c == '\t' || c == '\n' || c == '\r' || ('\x20' ≤ c && c ≤ '\x7e') || c == '\x85'
    || ('\u00a0' ≤ c && c != '\uFFFE' && c != '\uFFFF')

/-- The tokens of a document.  A byte order mark in front is passed over. -/
def Token.ofText (text : Text) : List Token :=
  if text.all isPrintable then
    let x := Lexer.start text
    let x := if x.cursor.peek == '\uFEFF' then x.advance 1 else x
    (x.tokensFrom (text.length + 1)).toList
  else [.broken .malformed]

end NoteDigest.Yaml
