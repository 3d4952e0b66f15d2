import NoteDigest.Files.Path

/-! # The file tree — files, directories and links

    The tree is a finite map from places to entries.  The top directory is always there.
    An entry counts only if every place above it is a directory, so a map with stray
    entries behaves as the tree without them.

    `locate` follows a path through the tree the way an operating system does: `..` leads
    to the directory above where one really is, links are followed, at most forty of them
    on one way, and a file cannot be passed through.  Names and paths have a greatest
    length.  Those who list folders, or work links out one by one, have limits of their own
    (`Limits`). -/

namespace NoteDigest

/-- When a file was last written: at a time set from outside, or at some tick of the
    program's own clock.  No time of one kind equals a time of the other. -/
inductive Stamp
  | clock (time : Int)
  | tick (number : Nat)
  deriving Repr, DecidableEq

/-- What can be at a place. -/
inductive Entry
  | file (bytes : ByteArray) (stamp : Stamp)
  | directory
  | link (target : Text)

/-- The most links that are followed on one way. -/
def Files.maxHops : Nat := 40

/-- How far work inside of work may go before there is no room for more: so many folders one
    inside the other are listed, and so many links are open at once.  The room is not the
    same for all who ask, but it is enough for what the system itself follows. -/
class Limits where
  folders : Nat
  links : Nat
  enough : Files.maxHops ≤ links

/-- The room that there usually is. -/
instance : Limits := ⟨970, 970, by decide⟩

/-- The file tree, the directory that paths start from, and the room for work on them. -/
structure Files where
  entries : List (Place × Entry)
  here : Place
  [limits : Limits]

/-- What goes wrong with files. -/
inductive FileFault
  | missing
  | present
  | notDirectory
  | isDirectory
  | linkLoop
  | nameTooLong
  deriving Repr, DecidableEq

/-- The number that systems give to a fault. -/
def FileFault.code : FileFault → Nat
  | .missing => 2
  | .present => 17
  | .notDirectory => 20
  | .isDirectory => 21
  | .linkLoop => 40
  | .nameTooLong => 36

/-- The end of a path: a place, and the entry there unless only the last name of the path
    is missing. -/
structure Spot where
  place : Place
  entry : Option Entry

namespace Files

/-! ## The map -/

/-- The entry at a place. -/
def get? (fs : Files) (place : Place) : Option Entry :=
  if place.isEmpty then some .directory else fs.entries.lookup place

/-- The tree with an entry put at a place. -/
def put (fs : Files) (place : Place) (entry : Entry) : Files :=
  { fs with entries := (place, entry) :: fs.entries.filter (·.1 != place) }

/-- The tree without the entry at a place. -/
def erase (fs : Files) (place : Place) : Files :=
  { fs with entries := fs.entries.filter (·.1 != place) }

/-- There is a directory at a place. -/
def hasDirectory (fs : Files) (place : Place) : Bool :=
  match fs.get? place with
  | some .directory => true
  | _ => false

/-! ## Following paths -/

/-- Where a link leads that stands in a directory. -/
def linkStart (directory : Place) (target : Text) : Place :=
  if (Path.ofText target).rooted then [] else directory

/-- What is wanted of the last name of a path. -/
inductive Ending
  /-- A link there is taken as it is. -/
  | keep
  /-- A link there is followed. -/
  | follow
  /-- A link there is followed, and a file is to be written: nothing that ends in a slash
      will do. -/
  | write
  deriving Repr, DecidableEq

/-- The names are those behind a slash at the end of a path. -/
def isFinalSlash (rest : List Name) : Bool :=
  !rest.isEmpty && rest.all List.isEmpty

/-- Follows names from a place.  A link on the way, or at the end unless it is kept, is
    handed to `onLink` with the place and the names to go on from. -/
def locateNames (fs : Files) (ending : Ending)
    (onLink : Place → List Name → Except FileFault Spot) :
    (place : Place) → List Name → Except FileFault Spot
  | place, [] => .ok ⟨place, fs.get? place⟩
  | place, name :: rest =>
      if !fs.hasDirectory place then .error .notDirectory
      else if Path.isIdle name then fs.locateNames ending onLink place rest
      else if name == Path.parentName then fs.locateNames ending onLink place.dropLast rest
      else if ending == .write && isFinalSlash rest then .error .isDirectory
      else if Path.isLongName name then .error .nameTooLong
      else
        let child := place ++ [name]
        match fs.get? child with
        | none => if rest.isEmpty then .ok ⟨child, none⟩ else .error .missing
        | some (.link target) =>
            if rest.isEmpty && ending == .keep then .ok ⟨child, some (.link target)⟩
            else onLink (linkStart place target) ((Path.ofText target).names ++ rest)
        | some _ => fs.locateNames ending onLink child rest

/-- Follows names from a place through at most `hops` links. -/
def locateWithin (fs : Files) (ending : Ending) :
    (hops : Nat) → Place → List Name → Except FileFault Spot
  | 0 => fs.locateNames ending fun _ _ => .error .linkLoop
  | hops + 1 => fs.locateNames ending (fs.locateWithin ending hops)

/-- The place a path starts from. -/
def startOf (fs : Files) (path : Path) : Place :=
  if path.rooted then [] else fs.here

/-- The end of a path.  The empty text, a path of one empty name, leads nowhere. -/
def locate (fs : Files) (ending : Ending) (path : Path) : Except FileFault Spot :=
  if !path.rooted && path.names == [[]] then .error .missing
  else if path.isLong then .error .nameTooLong
  else fs.locateWithin ending maxHops (fs.startOf path) path.names

/-- What a path leads to, links followed. -/
def stat (fs : Files) (path : Path) : Except FileFault Entry :=
  match fs.locate .follow path with
  | .ok ⟨_, some entry⟩ => .ok entry
  | .ok ⟨_, none⟩ => .error .missing
  | .error fault => .error fault

/-- A path leads to something. -/
def isPresent (fs : Files) (path : Path) : Bool :=
  (fs.stat path).toOption.isSome

/-- A path leads to a directory. -/
def isDirectory (fs : Files) (path : Path) : Bool :=
  match fs.stat path with
  | .ok .directory => true
  | _ => false

/-- A path leads to a file. -/
def isFile (fs : Files) (path : Path) : Bool :=
  match fs.stat path with
  | .ok (.file _ _) => true
  | _ => false

/-- A path cannot be followed because of its length, or that of a name on the way. -/
def isOverlong (fs : Files) (path : Path) : Bool :=
  match fs.stat path with
  | .error .nameTooLong => true
  | _ => false

/-- The bytes of the file that a path leads to. -/
def read (fs : Files) (path : Path) : Except FileFault ByteArray :=
  match fs.stat path with
  | .ok (.file bytes _) => .ok bytes
  | .ok .directory => .error .isDirectory
  | .ok (.link _) => .error .linkLoop
  | .error fault => .error fault

/-! ## Listing -/

/-- Names lead to an entry from a directory, through directories only. -/
def reaches (fs : Files) : (place : Place) → List Name → Bool
  | _, [] => false
  | place, [name] => fs.hasDirectory place && (fs.get? (place ++ [name])).isSome
  | place, name :: rest => fs.hasDirectory place && fs.reaches (place ++ [name]) rest

/-- What follows a place in a place below it. -/
def below? (top : Place) (place : Place) : Option (List Name) :=
  if top.isPrefixOf place then some (place.drop top.length) else none

/-- The ways down from a directory to every entry below it, each once.  No link is passed
    through. -/
def descendants (fs : Files) (top : Place) : List (List Name) :=
  ((fs.entries.filterMap fun (place, _) => below? top place).filter (fs.reaches top)).eraseDups

end Files
end NoteDigest
