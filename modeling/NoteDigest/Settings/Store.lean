import NoteDigest.Files.Change
import NoteDigest.Fault
import NoteDigest.Payload.Record
import NoteDigest.Text.Utf8

/-! # The settings file — where settings are kept between runs

    Settings are stored as a JSON object.  What is stored is read generously: whatever is
    missing takes its default, and a file that is missing, no JSON, no object, or wrong in
    any member it should know gives the defaults of all settings.  Three things are faults:
    bytes that are no text, an integer too long to be converted, and values too deep in one
    another. -/

namespace NoteDigest.Settings

/-! ## The stored form -/

/-- A truth value in JSON. -/
def truthText (value : Bool) : Text :=
  if value then "true".toList else "false".toList

/-- A member of the stored object, on a line of its own. -/
def memberText (name : String) (value : Bool) : Text :=
  "  \"".toList ++ name.toList ++ "\": ".toList ++ truthText value

/-- The text that settings are stored as. -/
def text (settings : Settings) : Text :=
  let rows := settings.toggles.map fun (name, value) => memberText name value
  '{' :: '\n' :: Text.joinWith [',', '\n'] rows ++ ['\n', '}']

/-- The settings in a JSON value. -/
def ofJson (json : Json) : Settings :=
  (Payload.settings json).toOption.getD {}

/-- The settings in the bytes of a file. -/
def ofBytes (bytes : ByteArray) : Except Fault Settings :=
  match Text.ofUtf8? bytes with
  | none => .error .badBytes
  | some stored =>
      match Json.parse stored with
      | .ok json => .ok (ofJson json)
      | .error .malformed => .ok {}
      | .error .integerTooLong => .error .integerTooLong
      | .error .tooDeep => .error .tooDeep

/-! ## The file -/

/-- The settings kept in the file that a path leads to. -/
def load (fs : Files) (path : Text) : Except Fault Settings :=
  match fs.read (Path.ofText path) with
  | .ok bytes => ofBytes bytes
  | .error _ => .ok {}

/-- Stores settings in a file; the directories above it are made if they are missing. -/
def save (path : Text) (settings : Settings) (stamp : Stamp) : Files.Change Unit := do
  let file := Path.ofText path
  let place := Path.lexical ((← get).startOf file) file.names
  if !(← get).isPresent (Path.toPlace place.dropLast) then
    Files.Change.makeWay place.dropLast.reverse
  Files.Change.apply fun fs => fs.write file (Text.toUtf8 settings.text) stamp

end NoteDigest.Settings
