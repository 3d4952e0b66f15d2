import NoteDigest.Files.Tree
import NoteDigest.Text.Quoted
import NoteDigest.Yaml.Fault

/-! # Faults — why something asked of a vault, its settings or the command line fails

    Faults fall in three groups, because callers forgive them differently.

    * A *reading fault* is about one file: it is missing, no text, or no file at all.  A
      summary goes on without such a note (`Fault.isReading`).
    * A *refusal* is about a path that may not be asked for (`Fault.isRefusal`).
    * All other faults end whatever was going on. -/

namespace NoteDigest

/-- A file fault in words. -/
def FileFault.message : FileFault → Text
  | .missing => "No such file or directory".toList
  | .present => "File exists".toList
  | .notDirectory => "Not a directory".toList
  | .isDirectory => "Is a directory".toList
  | .linkLoop => "Too many levels of symbolic links".toList
  | .nameTooLong => "File name too long".toList

/-- Why something failed. -/
inductive Fault
  /-- The file system says no. -/
  | file (cause : FileFault)
  /-- A note is no UTF-8 text. -/
  | undecodable (path : Text)
  /-- A path leads to no note. -/
  | noNote (path : Text)
  /-- A path leads to no file with a directive. -/
  | noDirective (path : Text)
  /-- A path leads out of the vault. -/
  | outside (path : Text)
  /-- A path holds the character that no name can hold. -/
  | nulInPath
  /-- Links turn in a circle on the way to a place. -/
  | circularLink
  /-- A file other than a note is no UTF-8 text. -/
  | badBytes
  /-- An integer in the settings has too many digits. -/
  | integerTooLong
  /-- Too many lists and objects are open at once in the settings. -/
  | tooDeep
  /-- A scalar in front matter cannot be converted. -/
  | property (cause : Yaml.ConversionFault)
  deriving Repr, DecidableEq

namespace Fault

/-- The fault is about reading one file. -/
def isReading : Fault → Bool
  | .file _ | .undecodable _ | .noNote _ | .noDirective _ => true
  | _ => false

/-- The fault is that nothing is there. -/
def isAbsence : Fault → Bool
  | .file .missing | .noNote _ | .noDirective _ => true
  | _ => false

/-- The fault is about a path that may not be asked for. -/
def isRefusal : Fault → Bool
  | .outside _ | .nulInPath => true
  | _ => false

/-- What is reported of a fault, where it is reported in words; of a file fault all but the
    file. -/
def message : Fault → Text
  | .file cause => "[Errno ".toList ++ Text.ofNat cause.code ++ [']', ' '] ++ cause.message
  | .undecodable path => path ++ " is not valid UTF-8".toList
  | .noNote path => path
  | .noDirective path => "File not found: ".toList ++ path
  | .outside path => "Note path escapes the vault: ".toList ++ path
  | .nulInPath => "embedded null byte".toList
  | _ => []

/-- What is reported of a fault met with a file, which is named if the file system says no. -/
def report (fault : Fault) (file : Text) : Text :=
  match fault with
  | .file _ => fault.message ++ [':', ' '] ++ Text.quoted file
  | _ => fault.message

end Fault
end NoteDigest
