import NoteDigest.Text.Basic
import NoteDigest.Yaml.Fault

/-! # Tokens — the words of a document

    Indentation has become brackets: a block collection starts with a token of its
    kind and ends with `blockEnd`, and each key of a mapping is announced by `key`. -/

namespace NoteDigest.Yaml

/-- A token. -/
inductive Token
  /-- The end of the document's text. -/
  | streamEnd
  /-- The text stops making sense here. -/
  | broken (fault : Fault)
  /-- A `%YAML` line with its major version. -/
  | versionDirective (major : Nat)
  /-- A `%TAG` line: the handle and what it abbreviates. -/
  | tagDirective (handle expansion : Text)
  /-- Any other line that starts with a percent sign. -/
  | otherDirective
  | documentStart
  | documentEnd
  | blockSequenceStart
  | blockMappingStart
  | blockEnd
  | flowSequenceStart
  | flowSequenceEnd
  | flowMappingStart
  | flowMappingEnd
  | blockEntry
  | flowEntry
  | key
  | value
  /-- A reference to an anchored node. -/
  | reference (name : Text)
  | anchor (name : Text)
  /-- A tag: its handle, if it is abbreviated, and the rest. -/
  | tag (handle : Option Text) (suffix : Text)
  | scalar (text : Text) (plain : Bool)
  deriving Repr, DecidableEq, Inhabited

namespace Token

/-! ## Depth -/

/-- The token opens a collection. -/
def opens : Token → Bool
  | .blockSequenceStart | .blockMappingStart | .flowSequenceStart | .flowMappingStart => true
  | _ => false

/-- The token closes a collection. -/
def closes : Token → Bool
  | .blockEnd | .flowSequenceEnd | .flowMappingEnd => true
  | _ => false

/-- The most collections that may be open at once. -/
def maxDepth : Nat := 485

/-- The tokens up to the one that opens a collection there is no room for. -/
def limitDepth : (room : Nat) → List Token → List Token
  | _, [] => []
  | room, token :: rest =>
      if token.opens then
        match room with
        | 0 => [.broken (.conversion .tooDeep)]
        | room + 1 => token :: limitDepth room rest
      else token :: limitDepth (if token.closes then room + 1 else room) rest

end Token
end NoteDigest.Yaml
