import NoteDigest.Yaml.Lexer
import NoteDigest.Yaml.Construct

/-! # Documents — from tokens to the tree and its value

    A text holds at most one document.  `Node.ofTokens` reads its tree: node properties,
    the collections in block and flow style, and the places where a node may be left
    out and counts as null.  `load` gives the value of a text. -/

namespace NoteDigest.Yaml

/-- What is known while a document is read. -/
structure Reading where
  tokens : List Token
  /-- The anchored nodes; a collection that is still open has no node yet. -/
  anchors : List (Text × Option Node)
  /-- What the tag handles abbreviate. -/
  handles : List (Text × Text)

/-- A step of reading. -/
abbrev Read := StateT Reading (Except Fault)

namespace Read

/-- The next token. -/
def peek : Read Token := do
  match (← get).tokens with
  | [] => return .streamEnd
  | .broken fault :: _ => throw fault
  | token :: _ => return token

/-- Passes over the next token. -/
def pop : Read Unit :=
  modify fun s => { s with tokens := s.tokens.tail }

/-- Gives up. -/
def malformed {α : Type} : Read α :=
  throw .malformed

/-- A node that is left out. -/
def missing : Node :=
  .scalar .null []

/-! ## Node properties -/

/-- The anchor and the tag in front of a node. -/
structure Properties where
  anchor : Option Text := none
  tag : Option Text := none

/-- The full name of a tag. -/
def tagName (handle : Option Text) (suffix : Text) : Read Text := do
  match handle with
  | none => return suffix
  | some h =>
      match (← get).handles.lookup h with
      | some expansion => return expansion ++ suffix
      | none => malformed

/-- The properties in front of a node, in either order. -/
def properties : Read Properties := do
  match ← peek with
  | .anchor name => do
      pop
      match ← peek with
      | .tag handle suffix => do
          pop
          return ⟨some name, some (← tagName handle suffix)⟩
      | _ => return ⟨some name, none⟩
  | .tag handle suffix => do
      pop
      match ← peek with
      | .anchor name => do
          pop
          return ⟨some name, some (← tagName handle suffix)⟩
      | _ => return ⟨none, some (← tagName handle suffix)⟩
  | _ => return {}

/-- The tag of a node that says nothing about its type: none, or a bare exclamation mark. -/
def Properties.isNeutral (p : Properties) : Bool :=
  p.tag == none || p.tag == some ['!']

/-- The type of a scalar.  A bare exclamation mark makes a quoted text count as plain. -/
def Properties.scalarTag (p : Properties) (text : Text) (plain : Bool) : Tag :=
  match p.tag with
  | none => if plain then Tag.ofPlain text else .str
  | some name => if p.isNeutral then Tag.ofPlain text else Tag.ofName name

/-- The type of a collection. -/
def Properties.collectionTag (p : Properties) (usual : Tag) : Tag :=
  match p.tag with
  | none => usual
  | some name => if p.isNeutral then usual else Tag.ofName name

/-- Takes a name for an anchored node.  No name is taken twice. -/
def declare (p : Properties) (node : Option Node) : Read Unit := do
  match p.anchor with
  | none => return
  | some name =>
      if ((← get).anchors.lookup name).isSome then malformed
      modify fun s => { s with anchors := (name, node) :: s.anchors }

/-- Completes an anchored collection. -/
def complete (p : Properties) (node : Node) : Read Node := do
  match p.anchor with
  | none => return node
  | some name =>
      modify fun s => { s with anchors := s.anchors.map fun (n, found) =>
        if n == name then (n, some node) else (n, found) }
      return node

/-! ## Nodes

    Each call spends one unit of `fuel`.  Between two calls at most two others pass
    without taking a token, so four units for each token are enough. -/

mutual

/-- A node.  In block style it may be a block collection, and after a key also a sequence
    whose dashes stand in the column of the key. -/
def node (block dashes : Bool) (fuel : Nat) : Read Node :=
  match fuel with
  | 0 => malformed
  | fuel + 1 => do
      match ← peek with
      | .reference name => do
          pop
          match (← get).anchors.lookup name with
          | none => malformed
          | some (some node) => return node
          | some none => return .recursive
      | _ => do
          let p ← properties
          let token ← peek
          match token, dashes, block with
          | .blockEntry, true, _ => do
              declare p none
              complete p (.sequence (p.collectionTag .seq) (← dashItems fuel))
          | .scalar text plain, _, _ => do
              pop
              let node := Node.scalar (p.scalarTag text plain) text
              declare p (some node)
              return node
          | .flowSequenceStart, _, _ => do
              declare p none
              pop
              complete p (.sequence (p.collectionTag .seq) (← flowItems true fuel))
          | .flowMappingStart, _, _ => do
              declare p none
              pop
              complete p (.mapping (p.collectionTag .map) (← flowEntries true fuel))
          | .blockSequenceStart, _, true => do
              declare p none
              pop
              complete p (.sequence (p.collectionTag .seq) (← blockItems fuel))
          | .blockMappingStart, _, true => do
              declare p none
              pop
              complete p (.mapping (p.collectionTag .map) (← blockEntries fuel))
          | _, _, _ =>
              if p.anchor.isSome || p.tag.isSome then do
                let node := Node.scalar (p.scalarTag [] true) []
                declare p (some node)
                return node
              else malformed

/-- The items of a block sequence up to its end. -/
def blockItems (fuel : Nat) : Read (List Node) :=
  match fuel with
  | 0 => malformed
  | fuel + 1 => do
      match ← peek with
      | .blockEntry => do
          pop
          let item ←
            match ← peek with
            | .blockEntry | .blockEnd => pure missing
            | _ => node true false fuel
          return item :: (← blockItems fuel)
      | .blockEnd => do
          pop
          return []
      | _ => malformed

/-- The items of a sequence whose dashes stand in the column of the key before it. -/
def dashItems (fuel : Nat) : Read (List Node) :=
  match fuel with
  | 0 => malformed
  | fuel + 1 => do
      match ← peek with
      | .blockEntry => do
          pop
          let item ←
            match ← peek with
            | .blockEntry | .key | .value | .blockEnd => pure missing
            | _ => node true false fuel
          return item :: (← dashItems fuel)
      | _ => return []

/-- The entries of a block mapping up to its end. -/
def blockEntries (fuel : Nat) : Read (List (Node × Node)) :=
  match fuel with
  | 0 => malformed
  | fuel + 1 => do
      match ← peek with
      | .key => do
          pop
          let key ←
            match ← peek with
            | .key | .value | .blockEnd => pure missing
            | _ => node true true fuel
          let value ←
            match ← peek with
            | .value => do
                pop
                match ← peek with
                | .key | .value | .blockEnd => pure missing
                | _ => node true true fuel
            | _ => pure missing
          return (key, value) :: (← blockEntries fuel)
      | .blockEnd => do
          pop
          return []
      | _ => malformed

/-- The items of a flow sequence up to its closing bracket.  A key among them is a mapping
    of one entry. -/
def flowItems (first : Bool) (fuel : Nat) : Read (List Node) :=
  match fuel with
  | 0 => malformed
  | fuel + 1 => do
      match ← peek, first with
      | .flowSequenceEnd, _ => do
          pop
          return []
      | .flowEntry, false => do
          pop
          flowItemsRest fuel
      | _, true => flowItemsRest fuel
      | _, false => malformed

/-- The items of a flow sequence behind its bracket or a comma. -/
def flowItemsRest (fuel : Nat) : Read (List Node) :=
  match fuel with
  | 0 => malformed
  | fuel + 1 => do
      match ← peek with
      | .flowSequenceEnd => do
          pop
          return []
      | .key => do
          pop
          let key ←
            match ← peek with
            | .value | .flowEntry | .flowSequenceEnd => pure missing
            | _ => node false false fuel
          let value ←
            match ← peek with
            | .value => do
                pop
                match ← peek with
                | .flowEntry | .flowSequenceEnd => pure missing
                | _ => node false false fuel
            | _ => pure missing
          return .mapping .map [(key, value)] :: (← flowItems false fuel)
      | _ => do
          let item ← node false false fuel
          return item :: (← flowItems false fuel)

/-- The entries of a flow mapping up to its closing brace. -/
def flowEntries (first : Bool) (fuel : Nat) : Read (List (Node × Node)) :=
  match fuel with
  | 0 => malformed
  | fuel + 1 => do
      match ← peek, first with
      | .flowMappingEnd, _ => do
          pop
          return []
      | .flowEntry, false => do
          pop
          flowEntriesRest fuel
      | _, true => flowEntriesRest fuel
      | _, false => malformed

/-- The entries of a flow mapping behind its brace or a comma. -/
def flowEntriesRest (fuel : Nat) : Read (List (Node × Node)) :=
  match fuel with
  | 0 => malformed
  | fuel + 1 => do
      match ← peek with
      | .flowMappingEnd => do
          pop
          return []
      | .key => do
          pop
          let key ←
            match ← peek with
            | .value | .flowEntry | .flowMappingEnd => pure missing
            | _ => node false false fuel
          let value ←
            match ← peek with
            | .value => do
                pop
                match ← peek with
                | .flowEntry | .flowMappingEnd => pure missing
                | _ => node false false fuel
            | _ => pure missing
          return (key, value) :: (← flowEntries false fuel)
      | _ => do
          let key ← node false false fuel
          return (key, missing) :: (← flowEntries false fuel)

end

/-! ## The document -/

/-- The handles that need no declaration. -/
def usualHandles : List (Text × Text) :=
  [(['!'], ['!']), (['!', '!'], "tag:yaml.org,2002:".toList)]

/-- The directives in front of a document.  The version is 1 and given once at most, and
    no handle is declared twice. -/
def directives : (fuel : Nat) → (versioned : Bool) → (declared : List (Text × Text)) →
    Read (List (Text × Text))
  | 0, _, _ => malformed
  | fuel + 1, versioned, declared => do
      match ← peek with
      | .versionDirective major => do
          pop
          if versioned || major != 1 then malformed else directives fuel true declared
      | .tagDirective handle expansion => do
          pop
          if (declared.lookup handle).isSome then malformed
          else directives fuel versioned ((handle, expansion) :: declared)
      | .otherDirective => do
          pop
          directives fuel versioned declared
      | _ => return declared

/-- Passes over the markers of the document's end. -/
def skipEnds : (fuel : Nat) → Read Unit
  | 0 => malformed
  | fuel + 1 => do
      match ← peek with
      | .documentEnd => do
          pop
          skipEnds fuel
      | _ => return

/-- The tree of a document; none when the text holds no document. -/
def document (fuel : Nat) : Read (Option Node) := do
  match ← peek with
  | .streamEnd => return none
  | .documentStart | .versionDirective _ | .tagDirective _ _ | .otherDirective => do
      let declared ← directives fuel false []
      match ← peek with
      | .documentStart => pop
      | _ => malformed
      modify fun s => { s with handles := declared ++ usualHandles }
      match ← peek with
      | .documentStart | .documentEnd | .streamEnd
      | .versionDirective _ | .tagDirective _ _ | .otherDirective => return some missing
      | _ => return some (← node true false fuel)
  | _ => return some (← node true false fuel)

/-- The tree of a text of one document at most. -/
def stream (fuel : Nat) : Read (Option Node) := do
  let found ← document fuel
  skipEnds fuel
  match ← peek with
  | .streamEnd => return found
  | _ => malformed

end Read

/-- The tree of a document from its tokens. -/
def Node.ofTokens (tokens : List Token) : Except Fault (Option Node) :=
  (Read.stream (4 * tokens.length + 8)).run' ⟨tokens, [], Read.usualHandles⟩

/-- The value of a text; an empty text is null. -/
def load (text : Text) : Except Fault Value := do
  match ← Node.ofTokens (Token.limitDepth Token.maxDepth (Token.ofText text)) with
  | some node => node.value
  | none => return .null

end NoteDigest.Yaml
