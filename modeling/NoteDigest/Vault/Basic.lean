import NoteDigest.Fault
import NoteDigest.Files.Resolve
import NoteDigest.Note.Basic

/-! # Vaults — directories of notes

    A vault is a directory; its notes are the files below it whose names end in `.md`.  A
    note is referred to by its path from the root of the vault, with all links taken out.
    This file says

    * which place a path in a vault stands for, `Vault.resolve`: never one outside the
      root;
    * how a path becomes a reference, `Vault.refFor` and `Vault.noteRef`;
    * which notes there are, `Vault.notes`. -/

namespace NoteDigest

/-- The metadata of notes as last read, by path, with the time each file was written. -/
abbrev Memory := List (Text × Stamp × Metadata)

/-- A vault: the path of its root as it was given, and what is remembered of its notes. -/
structure Vault where
  root : Path
  memory : Memory := []
  deriving Repr, DecidableEq

/-- The vault at a path, with nothing remembered. -/
def Vault.ofText (root : Text) : Vault :=
  { root := Path.parse root }

/-- The path up to the first of its names that holds a NUL. -/
def Path.beforeNul (path : Path) : Path :=
  { path with names := path.names.takeWhile (!Text.hasNul ·) }

/-- A NUL in a path is noticed when its name is looked up.  Behind a circle no name is; there
    it counts if it is left in the place that comes of the path. -/
def Files.noticesNul (fs : Files) (path : Path) : Bool :=
  path.names.any Text.hasNul
    && ((fs.resolution path.beforeNul).clear || (fs.resolution path).place.any Text.hasNul)

/-- The place that a path stands for.  The links before a NUL are followed first. -/
def Files.placeOf (fs : Files) (path : Path) : Except Fault Place :=
  if fs.nestsTooDeep path.beforeNul then .error .tooDeep
  else if fs.noticesNul path then .error .nulInPath
  else
    match fs.resolve path with
    | .ok place => .ok place
    | .error .tooDeep => .error .tooDeep
    | .error .circle => .error .circularLink

/-- Whether anything is at the end of a path that is too long cannot be told; to ask is a
    fault. -/
def Files.refuseOverlong (fs : Files) (path : Path) : Except Fault Unit :=
  if fs.isOverlong path then .error (.file .nameTooLong) else .ok ()

namespace Vault

/-- What the names of notes end in. -/
def noteSuffix : Text := ".md".toList

/-- The place of the root. -/
def rootPlace (vault : Vault) (fs : Files) : Except Fault Place :=
  fs.placeOf vault.root

/-! ## Paths in a vault -/

/-- The place that a path in a vault stands for; a path that leads out of the root is
    refused. -/
def resolve (vault : Vault) (fs : Files) (path : Text) : Except Fault Place := do
  let root ← vault.rootPlace fs
  let place ← fs.placeOf ((Path.toPlace root).join (Path.parse path))
  if root.isPrefixOf place then return place else throw (.outside path)

/-- The reference to what is at a place: its path from the root, and its name without the
    suffix of notes. -/
def refAt (root place : Place) : NoteRef :=
  let name := place.getLastD []
  ⟨Path.namesText (place.drop root.length), (Text.before? noteSuffix name).getD name⟩

/-- The reference to what a path stands for, be it there or not. -/
def refFor (vault : Vault) (fs : Files) (path : Text) : Except Fault NoteRef := do
  let place ← vault.resolve fs path
  return refAt (← vault.rootPlace fs) place

/-- The reference to a file that is there. -/
def noteRef (vault : Vault) (fs : Files) (path : Text) : Except Fault NoteRef := do
  let ref ← vault.refFor fs path
  let file := Path.toPlace (← vault.resolve fs ref.path)
  fs.refuseOverlong file
  if fs.isFile file then return ref else throw (.noNote path)

/-! ## Listing -/

/-- Names that end as the names of a note do. -/
def hasNoteName (names : List Name) : Bool :=
  (Text.before? noteSuffix (names.getLastD [])).isSome

/-- The path of the root, and of what some names below it lead to. -/
def pathBelow (vault : Vault) (names : List Name) : Path :=
  vault.root.join ⟨false, names⟩

/-- The references to files that names below the root lead to, in the order of their paths.
    A file that stands outside the root, behind a link, is left out; one that is reached on
    two ways is listed twice. -/
def refsOf (vault : Vault) (fs : Files) (ways : List (List Name)) : List NoteRef :=
  let files := ways.filter fun names => fs.isFile (vault.pathBelow names)
  NoteRef.sort (files.filterMap fun names => (vault.refFor fs (Path.namesText names)).toOption)

/-- The ways down from a directory to what has the name of a note. -/
def ways (fs : Files) (top : Place) : List (List Name) :=
  (fs.descendants top).filter hasNoteName

/-- A way down leads to a folder, which is looked into for notes. -/
def isFolder (fs : Files) (top : Place) (names : List Name) : Bool :=
  fs.hasDirectory (top ++ names)

/-- Some folder stands inside of more others than there is room for. -/
def nestsTooDeep (fs : Files) (top : Place) : Bool :=
  (fs.descendants top).any fun names => isFolder fs top names && fs.limits.folders < names.length

/-- The path of some folder, or of what has the name of a note, cannot be followed because of
    a length. -/
def anyOverlong (vault : Vault) (fs : Files) (top : Place) : Bool :=
  (fs.descendants top).any fun names =>
    (isFolder fs top names || hasNoteName names) && fs.isOverlong (vault.pathBelow names)

/-- Whether there is a directory at the root cannot be told because of a length.  No path with
    a NUL in it is followed that far: nothing is at its end. -/
def isOutOfReach (vault : Vault) (fs : Files) : Bool :=
  !vault.root.names.any Text.hasNul && fs.isOverlong vault.root

/-- The notes of a vault; none if there is no directory at its root.  Every folder below the
    root is looked into, be there notes in it or not. -/
def notes (vault : Vault) (fs : Files) : Except Fault (List NoteRef) :=
  if vault.isOutOfReach fs then .error (.file .nameTooLong)
  else
    match fs.locate .follow vault.root with
    | .ok ⟨top, some .directory⟩ =>
        if nestsTooDeep fs top then .error .tooDeep
        else if vault.anyOverlong fs top then .error (.file .nameTooLong)
        else .ok (vault.refsOf fs (ways fs top))
    | _ => .ok []

end Vault
end NoteDigest
