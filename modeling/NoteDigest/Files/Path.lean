import NoteDigest.Text.Basic

/-! # Paths — how files are named

    A *place* is where something is: the names on the way to it from the top directory,
    with no detours.  A *path* is how a user or a link names a place; it starts at the top
    or at some directory, and may hold empty names and the names `.` and `..`. -/

namespace NoteDigest

/-- The name of a directory entry. -/
abbrev Name := Text

/-- A location, as the names from the top directory down to it. -/
abbrev Place := List Name

/-- A path as it is written: whether it starts at the top, and its names. -/
structure Path where
  rooted : Bool
  names : List Name
  deriving Repr, DecidableEq

namespace Path

/-- The name of the directory itself. -/
def self : Name := ['.']

/-- The name of the directory above. -/
def parentName : Name := ['.', '.']

/-- A name that leads nowhere else: the empty name or a single dot. -/
def isIdle (name : Name) : Bool :=
  name == [] || name == self

/-- The path that a text writes, with all its names. -/
def ofText (text : Text) : Path :=
  ⟨text.head? == some '/', Text.splitWhere (· == '/') text⟩

/-- The path without idle names. -/
def tidy (path : Path) : Path :=
  { path with names := path.names.filter (!isIdle ·) }

/-- The tidy path that a text writes; the empty text stands for the directory itself. -/
def parse (text : Text) : Path :=
  (ofText text).tidy

/-- The path to a place from the top. -/
def toPlace (place : Place) : Path :=
  ⟨true, place⟩

/-- A path that starts where another one leads, unless it starts at the top. -/
def join (base path : Path) : Path :=
  if path.rooted then path else { base with names := base.names ++ path.names }

/-- The directory that holds what the path names. -/
def parent (path : Path) : Path :=
  { path with names := path.names.dropLast }

/-- The names with slashes between them; a dot when there are none. -/
def namesText (names : List Name) : Text :=
  if names.isEmpty then self else Text.joinWith ['/'] names

/-- The text of a tidy path. -/
def text (path : Path) : Text :=
  if path.rooted then '/' :: Text.joinWith ['/'] path.names else namesText path.names

/-- A text that starts with two slashes and not with three.  They mean no more than one, but
    are both kept when the path is written again. -/
def hasDoubleSlash : Text → Bool
  | '/' :: '/' :: rest => rest.head? != some '/'
  | _ => false

/-- The text of a tidy path that starts as some text does. -/
def textLike (written : Text) (path : Path) : Text :=
  if hasDoubleSlash written then '/' :: path.text else path.text

/-! ## Limits -/

/-- The most bytes of a name. -/
def maxNameBytes : Nat := 255

/-- The most bytes of a path, with a slash after each of its names and one at the top. -/
def maxBytes : Nat := 4096

/-- A name that no entry can bear, for its length. -/
def isLongName (name : Name) : Bool :=
  maxNameBytes < Text.byteCount name

/-- The number of bytes of names with a slash after each. -/
def namesBytes : List Name → Nat
  | [] => 0
  | name :: rest => Text.byteCount name + 1 + namesBytes rest

/-- The slash of a path that starts at the top, unless it stands after an empty first name. -/
def rootBytes (path : Path) : Nat :=
  if path.rooted && path.names.head? != some [] then 1 else 0

/-- The path is too long to be followed. -/
def isLong (path : Path) : Bool :=
  maxBytes < path.rootBytes + namesBytes path.names

/-! ## Paths without a tree -/

/-- The place that names lead to from a place when no directory is consulted: `..` takes
    back the name before it. -/
def lexical (base : Place) : List Name → Place
  | [] => base
  | name :: rest =>
      if isIdle name then lexical base rest
      else if name == parentName then lexical base.dropLast rest
      else lexical (base ++ [name]) rest

end Path

/-- The character that no name can hold. -/
def nul : Char := '\x00'

/-- A text that no file can be named by. -/
def Text.hasNul (text : Text) : Bool :=
  text.contains nul

end NoteDigest
