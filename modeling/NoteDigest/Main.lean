import NoteDigest.Console.Demo
import NoteDigest.Console.Summarize

/-! # The program — the commands on real files

    What a command may need is read into a file tree: the vault, the settings, and the
    files that its arguments name.  The command works on the tree, and what it has written
    there is written back.  The first argument names the command. -/

namespace NoteDigest.Program

/-! ## Files -/

/-- The path of a place. -/
def pathOf (place : Place) : String :=
  String.ofList (Path.toPlace place).text

/-- What a directory says of a place in it. -/
def directoryEntry (place : Place) : IO.FS.DirEntry :=
  { root := pathOf place.dropLast, fileName := String.ofList (place.getLastD []) }

/-- The entry at a place, if there is one that can be read. -/
def readEntry (place : Place) : IO (Option Entry) := do
  match ← (directoryEntry place).path.symlinkMetadata.toBaseIO with
  | .error _ => return none
  | .ok info =>
      match info.type with
      | .dir => return some .directory
      | .file =>
          let bytes ← (IO.FS.readBinFile (pathOf place)).toBaseIO
          return bytes.toOption.map fun bytes => .file bytes (.clock info.modified.sec)
      | .symlink =>
          let target ← (IO.FS.realPath (pathOf place)).toBaseIO
          return target.toOption.map fun target => .link target.toString.toList
      | .other => return none

/-- The tree with the entries on the way from a place down some names. -/
def readWay (above : Place) (fs : Files) : List Name → IO Files
  | [] => return fs
  | name :: rest => do
      let place := above ++ [name]
      match ← readEntry place with
      | some entry => readWay place (fs.put place entry) rest
      | none => return fs

/-- The tree with all entries at and below a place. -/
partial def readBelow (place : Place) (fs : Files) : IO Files := do
  match ← readEntry place with
  | none => return fs
  | some .directory =>
      let children ← (directoryEntry place).path.readDir
      children.foldlM (fun fs child => readBelow (place ++ [child.fileName.toList]) fs)
        (fs.put place .directory)
  | some entry => return fs.put place entry

/-- The tree with what a path leads to, and everything on the way there. -/
def readPath (fs : Files) (text : Text) : IO Files := do
  let path := Path.parse text
  let place := Path.lexical (fs.startOf path) path.names
  let fs ← readWay [] fs place
  match ← (IO.FS.realPath (pathOf place)).toBaseIO with
  | .error _ => return fs
  | .ok target =>
      let target := (Path.parse target.toString.toList).names
      readBelow target (← readWay [] fs target)

/-- Writes back the files that bear a time of the program's own clock. -/
def writeBack (fs : Files) : IO Unit :=
  fs.entries.forM fun (place, entry) => do
    match entry with
    | .file bytes (.tick _) =>
        IO.FS.createDirAll (pathOf place.dropLast)
        IO.FS.writeBinFile (pathOf place) bytes
    | _ => return

/-! ## Commands -/

/-- A setting from the environment. -/
def setting (name : String) (usual : String) : IO Text :=
  return ((← IO.getEnv name).getD usual).toList

/-- Ends the program as a command has ended. -/
def finish (usage : Text) (outcome : Console.Outcome) : IO UInt32 := do
  IO.print (String.ofList outcome.printed)
  match outcome.exit with
  | .done => return 0
  | .help =>
      IO.println (String.ofList usage)
      return 0
  | .misuse =>
      IO.eprintln (String.ofList usage)
      return 2
  | .refusal message =>
      IO.eprintln (String.ofList message)
      return 1

/-- Runs a command on the files that some paths lead to. -/
def run (usage : Text) (paths : List Text) (command : Job Console.Outcome) : IO UInt32 := do
  let here := (Path.parse (← IO.currentDir).toString.toList).names
  let vaultPath ← setting "VAULT_PATH" "./vault"
  let settingsPath ← setting "SETTINGS_PATH" "./settings.json"
  let files ← readWay [] ⟨[], here⟩ here
  let files ← (vaultPath :: settingsPath :: paths).foldlM readPath files
  let (result, after) := command { files, vaultPath, settingsPath }
  writeBack after.files
  match result with
  | .ok outcome => finish usage outcome
  | .error fault => finish usage (.refuse fault.message)

/-- Runs the summarize command. -/
def runSummarize (arguments : List Text) : IO UInt32 :=
  let paths :=
    match Console.summarizeCommand.read arguments with
    | .values given => Console.summarizePaths given
    | _ => []
  run (Console.summarizeCommand.usage "summarize".toList) paths (Console.summarize arguments)

/-- Runs the demo command. -/
def runDemo (arguments : List Text) : IO UInt32 :=
  let paths :=
    match Console.demoCommand.read arguments with
    | .values given => [(Console.lastValue? given .path).getD Console.demoRoot]
    | _ => []
  run (Console.demoCommand.usage "create-demo-vault".toList) paths (Console.createDemo arguments)

end NoteDigest.Program

/-- The program: the first argument names the command, the others are its own. -/
def main (arguments : List String) : IO UInt32 := do
  match arguments with
  | "summarize" :: rest => NoteDigest.Program.runSummarize (rest.map String.toList)
  | "create-demo-vault" :: rest => NoteDigest.Program.runDemo (rest.map String.toList)
  | _ =>
      IO.eprintln "usage: summarize ... | create-demo-vault ..."
      return 2
