import NoteDigest.Directive.Query

/-! # Blocks — directives inside notes

    A directive stands in a note as a block fenced with backticks, whose opening fence
    names the language `add-summary`.  `blocks` finds the blocks of a text, `render`
    writes one. -/

namespace NoteDigest.Directive

/-- The language named on the opening fence. -/
def language : Text := "add-summary".toList

/-- Three backticks. -/
def fence : Text := "\x60\x60\x60".toList

/-- A line that opens a block: the fence with the language, blanks around them. -/
def opens (line : Text) : Bool :=
  Text.trim line == fence ++ language

/-- A line that closes a block: the fence alone, blanks around it. -/
def closes (line : Text) : Bool :=
  Text.trim line == fence

/-- A block: its body, and the lines of its two fences. -/
structure Block where
  body : Text
  first : Nat
  last : Nat
  deriving Repr, DecidableEq

/-- The blocks in some lines from line `number` on.  While a block is open, `within` holds
    the line of its opening fence and the lines of its body so far.  A block that is
    never closed is none. -/
def blocksFrom : (number : Nat) → (within : Option (Nat × List Text)) → List Text → List Block
  | _, _, [] => []
  | number, none, line :: rest =>
      blocksFrom (number + 1) (if opens line then some (number, []) else none) rest
  | number, some (first, body), line :: rest =>
      if closes line then
        ⟨Text.unlines body, first, number⟩ :: blocksFrom (number + 1) none rest
      else blocksFrom (number + 1) (some (first, body ++ [line])) rest

/-- The blocks of a text, from top to bottom. -/
def blocks (text : Text) : List Block :=
  blocksFrom 0 none (Text.lines text)

/-- The block that asks for any of some tags, and for none of others if there are any.
    The word `None` stands for no tags. -/
def render (wanted : Text) (unwanted : Option Text) : Text :=
  let excluding :=
    match unwanted with
    | none => []
    | some tags =>
        if tags.isEmpty || tags == "None".toList then []
        else "exclude: ".toList ++ tags ++ ['\n']
  fence ++ language ++ ['\n'] ++ "tags: ".toList ++ wanted ++ ['\n'] ++ excluding ++ fence ++ ['\n']

end NoteDigest.Directive
