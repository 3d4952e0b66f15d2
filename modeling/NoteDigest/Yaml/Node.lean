import NoteDigest.Text.Basic

/-! # Nodes — the tree of a document

    A node is a scalar with its text, a sequence or a mapping, each with the type that
    its tag names or that its form implies.  A reference to a node is a copy of it.  A
    reference to a collection from inside that collection cannot be one, and becomes
    `recursive`. -/

namespace NoteDigest.Yaml

/-- The type of a node. -/
inductive Tag
  | null
  | bool
  | int
  | float
  | binary
  | timestamp
  | str
  | seq
  | map
  | set
  | omap
  | pairs
  /-- The key `<<`, which merges mappings into the one it stands in. -/
  | merge
  /-- The scalar `=`, which has no value of its own. -/
  | default
  /-- Any other tag. -/
  | unknown
  deriving Repr, DecidableEq, Inhabited

/-- The tag with a full name. -/
def Tag.ofName (name : Text) : Tag :=
  match Text.after? "tag:yaml.org,2002:".toList name with
  | none => .unknown
  | some short =>
      let known : List (String × Tag) :=
        [("null", .null), ("bool", .bool), ("int", .int), ("float", .float),
         ("binary", .binary), ("timestamp", .timestamp), ("str", .str), ("seq", .seq),
         ("map", .map), ("set", .set), ("omap", .omap), ("pairs", .pairs),
         ("merge", .merge), ("value", .default)]
      (known.lookup (String.ofList short)).getD .unknown

/-- A node of the tree. -/
inductive Node
  | scalar (tag : Tag) (text : Text)
  | sequence (tag : Tag) (items : List Node)
  | mapping (tag : Tag) (entries : List (Node × Node))
  | recursive
  deriving Repr, Inhabited

/-- The type of a node. -/
def Node.tag : Node → Tag
  | .scalar tag _ | .sequence tag _ | .mapping tag _ => tag
  | .recursive => .unknown

end NoteDigest.Yaml
