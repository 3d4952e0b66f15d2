import NoteDigest.Console.Options
import NoteDigest.Console.Outcome

/-! # The summarize command — a summary or an expanded note on the terminal

    The command prints the summary of a directive, given in its arguments or in a file, or
    a note with its directives replaced by their summaries.  It works on the vault named
    in its arguments, in the layout of the stored settings less what its arguments turn
    off. -/

namespace NoteDigest.Console

/-- The options of the command. -/
inductive SummarizeOption
  | vault
  | directive
  | directiveFile
  | note
  | noLink
  | noCallout
  | verbose
  | help
  deriving Repr, DecidableEq

/-- The command as it is called. -/
def summarizeCommand : Command SummarizeOption where
  forms :=
    [{ key := .help, long := "--help".toList, short := some 'h' },
     { key := .vault, long := "--vault".toList, takesValue := true },
     { key := .directive, long := "--directive".toList, takesValue := true },
     { key := .directiveFile, long := "--directive-file".toList, takesValue := true },
     { key := .note, long := "--note".toList, takesValue := true },
     { key := .noLink, long := "--no-link".toList },
     { key := .noCallout, long := "--no-callout".toList },
     { key := .verbose, long := "--verbose".toList, short := some 'v' }]
  help := .help

/-- The text of a file with a directive. -/
def readDirective (fs : Files) (path : Text) : Except Fault Text := do
  let file := Path.parse path
  let absent := Fault.noDirective (file.textLike path)
  if path.hasNul then throw absent
  fs.refuseOverlong file
  if !fs.isPresent file then throw absent
  let bytes ← (fs.read file).mapError Fault.file
  match Text.ofUtf8? bytes with
  | some text => return Text.unixNewlines text
  | none => throw .badBytes

/-- The directive that is asked for: the one in the arguments, where a backslash with an `n`
    stands for a newline, or else the one in a file; the empty text if there is neither. -/
def directiveText (fs : Files) (file : Option Text) (inline : Option Text) : Except Fault Text :=
  match inline, file with
  | some (c :: rest), _ => return Text.replace ['\\', 'n'] ['\n'] (c :: rest)
  | _, none => return []
  | _, some path => readDirective fs path

/-- Prints a note with its directives replaced by their summaries. -/
def printNote (vault : Place) (path : Text) (layout : Layout) : Job Outcome := do
  match ← Job.attempt (Job.askVault vault fun v fs => v.noteRef fs path) with
  | .ok ref =>
      let text ← Job.askVault vault fun v fs => v.readText fs ref
      return .printLine (← Job.useVault vault fun v fs => v.expand fs text layout)
  | .error fault =>
      if fault.isRefusal || fault.isAbsence then
        return .refuse ("Cannot open note ".toList ++ path ++ [':', ' '] ++ fault.message)
      else throw fault

/-- Prints the summary of a directive. -/
def printSummary (vault : Place) (source : Text) (layout : Layout) : Job Outcome := do
  if source.isBlankText then
    return .refuse "Provide --directive, --directive-file or --note.".toList
  let summary ← Job.useVault vault fun v fs => v.summary fs source layout
  if summary.empty then return .printLine (summary.message.getD [])
  else return .print summary.markdown

/-- Does what the options given to the command ask for. -/
def summarizeWith (given : List (SummarizeOption × Text)) : Job Outcome := do
  let settings ← Job.loadSettings
  let layout : Layout :=
    ⟨settings.includeLink && !isGiven given .noLink,
     settings.includeCallout && !isGiven given .noCallout⟩
  let vault ← Job.openVault (lastValue? given .vault)
  match lastValue? given .note with
  | some (c :: rest) => printNote vault (c :: rest) layout
  | _ =>
      let fs := (← get).files
      let source ← Job.ofExcept <|
        directiveText fs (lastValue? given .directiveFile) (lastValue? given .directive)
      printSummary vault source layout

/-- The paths that the options given to the command name. -/
def summarizePaths (given : List (SummarizeOption × Text)) : List Text :=
  [.vault, .directiveFile].filterMap (lastValue? given)

/-- The summarize command. -/
def summarize (arguments : List Text) : Job Outcome :=
  match summarizeCommand.read arguments with
  | .values given => summarizeWith given
  | .help => return ⟨[], .help⟩
  | .misuse => return ⟨[], .misuse⟩

end NoteDigest.Console
