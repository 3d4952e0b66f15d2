import NoteDigest.Console.Options
import NoteDigest.Console.Outcome
import NoteDigest.Directive.Block

/-! # The demo command — a small vault to try things on

    The command writes a handful of tagged notes, one of which holds a directive.  Notes
    that are there already are left alone unless they are to be replaced. -/

namespace NoteDigest.Console

/-! ## The vault -/

/-- A note of the demo vault: its path, and its text of some lines. -/
def demoNote (path : String) (lines : List String) : Text × Text :=
  (path.toList, lines.flatMap fun line => line.toList ++ ['\n'])

/-- The notes of the demo vault, by their paths. -/
def demoNotes : List (Text × Text) :=
  [demoNote "Projects/alpha.md"
     ["# Alpha",
      "Kick-off moved to Monday #project/alpha ^kickoff",
      "**Budget** approved by finance #project/alpha/budget",
      "Unrelated thought #idea"],
   demoNote "Projects/beta.md"
     ["# Beta",
      "Beta needs a second reviewer #project/beta #review",
      "Draft is still private #project/beta #private"],
   demoNote "Journal/2024-05-01.md"
     ["---",
      "exclude-tag-summary: true",
      "---",
      "Private musing about alpha #project/alpha"],
   demoNote "Ideas.md"
     ["Try hierarchical tags everywhere #idea/tags",
      "An #ideas tag is not part of #idea"],
   ("Overview.md".toList,
    "# Overview\n\n".toList ++ Directive.render "#project".toList (some "#private".toList))]

/-- Writes a note below a root, unless it is there and is not to be replaced; tells whether
    it has been written. -/
def writeDemoNote (root : Path) (overwrite : Bool) (path text : Text) : Job Bool := do
  let file := root.join (Path.parse path)
  if file.names.any Text.hasNul then throw .nulInPath
  let fs := (← get).files
  Job.ofExcept (fs.refuseOverlong file)
  if fs.isPresent file && !overwrite then return false
  Job.change fun stamp => Files.Change.writeWithParents file (Text.toUtf8 text) stamp
  return true

/-- Writes some of the notes below a root; gives the paths of those that have been written. -/
def writeDemoNotes (root : Path) (overwrite : Bool) : List (Text × Text) → Job (List Path)
  | [] => return []
  | (path, text) :: rest => do
      let isNew ← writeDemoNote root overwrite path text
      let others ← writeDemoNotes root overwrite rest
      return if isNew then root.join (Path.parse path) :: others else others

/-- Writes the demo vault below a root; gives the texts of the paths written. -/
def seedVault (root : Text) (overwrite : Bool) : Job (List Text) :=
  return (← writeDemoNotes (Path.parse root) overwrite demoNotes).map (Path.textLike root)

/-! ## The command -/

/-- The options of the command. -/
inductive DemoOption
  | path
  | overwrite
  | help
  deriving Repr, DecidableEq

/-- The command as it is called. -/
def demoCommand : Command DemoOption where
  forms :=
    [{ key := .help, long := "--help".toList, short := some 'h' },
     { key := .path, long := "--path".toList, takesValue := true },
     { key := .overwrite, long := "--overwrite".toList }]
  help := .help

/-- The root of the demo vault when none is given. -/
def demoRoot : Text := "./vault".toList

/-- The demo command. -/
def createDemo (arguments : List Text) : Job Outcome :=
  match demoCommand.read arguments with
  | .values given => do
      let root := (lastValue? given .path).getD demoRoot
      let written ← seedVault root (isGiven given .overwrite)
      return .printLine <|
        "Wrote ".toList ++ Text.ofNat written.length ++ " note(s) to ".toList
          ++ (Path.parse root).textLike root
  | .help => return ⟨[], .help⟩
  | .misuse => return ⟨[], .misuse⟩

end NoteDigest.Console
