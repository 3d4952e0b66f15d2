import NoteDigest.Vault.Basic
import NoteDigest.Note.FrontMatter
import NoteDigest.Text.Utf8

/-! # Content — the text and the metadata of notes

    Notes are UTF-8 texts.  Metadata is remembered under the path of a note together with
    the time its file was last written, and is not read again until that time changes.
    What is remembered never shows, unless a file changes and keeps its time. -/

namespace NoteDigest.Vault

/-! ## Reading -/

/-- The text of a note, with every line ending written as a newline. -/
def readText (vault : Vault) (fs : Files) (ref : NoteRef) : Except Fault Text := do
  let place ← vault.resolve fs ref.path
  let bytes ← (fs.read (Path.toPlace place)).mapError Fault.file
  match Text.ofUtf8? bytes with
  | some text => return Text.unixNewlines text
  | none => throw (.undecodable ref.path)

/-- The lines of a note. -/
def lines (vault : Vault) (fs : Files) (ref : NoteRef) : Except Fault (List Text) :=
  (vault.readText fs ref).map Text.lines

/-- The note that a path leads to, and its text. -/
def openNote (vault : Vault) (fs : Files) (path : Text) : Except Fault (NoteRef × Text) := do
  let ref ← vault.noteRef fs path
  return (ref, ← vault.readText fs ref)

/-- The path from the top to the file that is opened for a path; nothing if there is no place
    for it. -/
def fileText (vault : Vault) (fs : Files) (path : Text) : Text :=
  match vault.refFor fs path >>= fun ref => vault.resolve fs ref.path with
  | .ok place => (Path.toPlace place).text
  | .error _ => []

/-- The metadata of a note, read from its lines. -/
def readMetadata (vault : Vault) (fs : Files) (ref : NoteRef) : Except Fault Metadata := do
  (Note.metadataOf (← vault.lines fs ref)).mapError Fault.property

/-! ## Remembering -/

/-- When the file of a note was last written; none for what is no file. -/
def stampOf (vault : Vault) (fs : Files) (ref : NoteRef) : Except Fault (Option Stamp) := do
  let place ← vault.resolve fs ref.path
  match fs.stat (Path.toPlace place) with
  | .ok (.file _ stamp) => return some stamp
  | .ok _ => return none
  | .error cause => throw (.file cause)

/-- The metadata remembered under a path, if it was read from a file written at that time. -/
def remembered? (vault : Vault) (path : Text) (stamp : Stamp) : Option Metadata :=
  match vault.memory.lookup path with
  | some (known, found) => if known = stamp then some found else none
  | none => none

/-- The metadata of a note, remembered or read. -/
def metadata (vault : Vault) (fs : Files) (ref : NoteRef) : Except Fault Metadata := do
  match (← vault.stampOf fs ref).bind (vault.remembered? ref.path) with
  | some found => return found
  | none => vault.readMetadata fs ref

/-- The vault after the metadata of a note has been asked for. -/
def remember (vault : Vault) (fs : Files) (ref : NoteRef) : Vault :=
  match vault.stampOf fs ref, vault.metadata fs ref with
  | .ok (some stamp), .ok found =>
      { vault with
        memory := (ref.path, stamp, found) :: vault.memory.filter (·.1 != ref.path) }
  | _, _ => vault

/-- The vault after the metadata of some notes has been asked for. -/
def rememberAll (vault : Vault) (fs : Files) (refs : List NoteRef) : Vault :=
  refs.foldl (fun vault ref => vault.remember fs ref) vault

end NoteDigest.Vault
