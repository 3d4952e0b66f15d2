import NoteDigest.Console.Summarize
import NoteDigest.Proofs.Vault.Lookup
import NoteDigest.Proofs.Workspace.Viewing

/-! # Running — what the summarize command comes to

    The command asks the shared vault at a root for one note or for one summary.  What it
    comes to can be told from that vault and the files alone: `noteOutcome` for a note,
    `summaryOutcome` for a summary, and `outcomeOf` for the options that it is given
    (`summarizeWith_result`).

    A note is printed if it is opened, and given up if its path may not be asked for or leads
    to no file (`noteOutcome_of_opened`, `noteOutcome_of_unopened`).  Any other fault is passed
    on. -/

namespace NoteDigest.Console

open NoteDigest.Path Files

variable {workspace : Workspace} {vault : Vault} {fs : Files} {path source : Text}
  {layout : Layout} {ref : NoteRef} {text : Text} {fault : Fault}

/-! ## Outcomes -/

/-- The command cannot open a note. -/
def Outcome.cannotOpen (path : Text) (fault : Fault) : Outcome :=
  .refuse ("Cannot open note ".toList ++ path ++ [':', ' '] ++ fault.message)

/-- The command is given nothing to do. -/
def Outcome.idle : Outcome :=
  .refuse "Provide --directive, --directive-file or --note.".toList

/-- The command prints a summary, or on a line the message that there is none. -/
def Outcome.ofSummary (summary : Summary) : Outcome :=
  if summary.empty then .printLine (summary.message.getD []) else .print summary.markdown

/-- What comes of a path that is to be printed. -/
def noteOutcome (vault : Vault) (fs : Files) (path : Text) (layout : Layout) :
    Except Fault Outcome :=
  match vault.noteRef fs path with
  | .ok ref => do
      let text ← vault.readText fs ref
      return .printLine (← (vault.expand fs text layout).1)
  | .error fault =>
      if fault.isRefusal || fault.isAbsence then .ok (.cannotOpen path fault) else .error fault

/-- What comes of a directive whose summary is to be printed. -/
def summaryOutcome (vault : Vault) (fs : Files) (source : Text) (layout : Layout) :
    Except Fault Outcome :=
  if source.isBlankText then .ok .idle else (vault.summary fs source layout).1.map .ofSummary

/-- What comes of a directive that is given in the arguments or in a file. -/
def directiveOutcome (vault : Vault) (fs : Files) (file inline : Option Text) (layout : Layout) :
    Except Fault Outcome := do
  summaryOutcome vault fs (← directiveText fs file inline) layout

/-- The layout that is printed: the stored one, less what is turned off. -/
def layoutOf (settings : Settings) (given : List (SummarizeOption × Text)) : Layout :=
  ⟨settings.includeLink && !isGiven given .noLink,
   settings.includeCallout && !isGiven given .noCallout⟩

/-- What comes of the options given to the command. -/
def outcomeOf (vault : Vault) (fs : Files) (given : List (SummarizeOption × Text))
    (layout : Layout) : Except Fault Outcome :=
  match lastValue? given .note with
  | some (c :: rest) => noteOutcome vault fs (c :: rest) layout
  | _ => directiveOutcome vault fs (lastValue? given .directiveFile) (lastValue? given .directive)
      layout

/-! ## Notes that are opened, and others -/

/-- A note that is found is a file; nothing but its bytes can keep it from being read. -/
theorem readText_of_noteRef (h : vault.noteRef fs path = .ok ref) :
    ∃ bytes, vault.readText fs ref
      = match Text.ofUtf8? bytes with
        | some text => .ok (Text.unixNewlines text)
        | none => .error (.undecodable ref.path) := by
  obtain ⟨-, place, hresolved, hfile⟩ := Vault.noteRef_eq_ok h
  obtain ⟨goal, bytes, stamp, hfound⟩ := isFile_iff.mp hfile
  have hread : fs.read (toPlace place) = .ok bytes := by
    rw [Files.read, stat, hfound]
  refine ⟨bytes, ?_⟩
  rw [Vault.readText, hresolved]
  simp only [bind, Except.bind, hread, Except.mapError]
  cases Text.ofUtf8? bytes <;> rfl

/-- **A NOTE THAT IS OPENED** is printed with its directives replaced. -/
theorem noteOutcome_of_opened (h : vault.openNote fs path = .ok (ref, text)) :
    noteOutcome vault fs path layout = (vault.expand fs text layout).1.map .printLine := by
  obtain ⟨href, htext⟩ := Vault.openNote_eq_ok h
  rw [noteOutcome, href]
  simp only [htext]
  rfl

/-- **A NOTE THAT IS NOT OPENED** is given up if its path is refused or leads to no file. -/
theorem noteOutcome_of_unopened (h : vault.openNote fs path = .error fault) :
    noteOutcome vault fs path layout
      = if fault.isRefusal || fault.isAbsence then .ok (.cannotOpen path fault)
        else .error fault := by
  rw [noteOutcome]
  cases href : vault.noteRef fs path with
  | error cause =>
      obtain rfl : cause = fault := by
        rw [Vault.openNote, href] at h
        exact Except.error.inj h
      rfl
  | ok ref =>
      -- the note is found, so only its bytes are left to fail, and they are neither cause
      obtain ⟨bytes, htext⟩ := readText_of_noteRef href
      rw [Vault.openNote, href] at h
      simp only [bind, Except.bind, htext] at h ⊢
      cases hdecoded : Text.ofUtf8? bytes with
      | some text =>
          rw [hdecoded] at h
          cases h
      | none =>
          rw [hdecoded] at h
          cases h
          rfl

/-! ## The command -/

theorem printNote_result (place : Place) (path : Text) (layout : Layout) :
    (printNote place path layout (workspace.putVault place vault)).1
      = noteOutcome vault workspace.files path layout := by
  rw [printNote, result_bind (Workspace.run_attempt_askVault workspace place vault _), noteOutcome,
    Except.bind]
  cases vault.noteRef workspace.files path with
  | error fault =>
      simp only
      split
      · rfl
      · rfl
  | ok ref =>
      simp only [result_bind (Workspace.run_askVault workspace place vault _)]
      refine congrArg _ (funext fun text => ?_)
      rw [result_bind (Workspace.run_useVault workspace place vault _)]
      rfl

theorem printSummary_result (place : Place) (source : Text) (layout : Layout) :
    (printSummary place source layout (workspace.putVault place vault)).1
      = summaryOutcome vault workspace.files source layout := by
  rw [printSummary, summaryOutcome]
  split
  · rfl
  · show ((Job.useVault place _ >>= _) (workspace.putVault place vault)).1 = _
    rw [result_bind (Workspace.run_useVault workspace place vault _)]
    cases (vault.summary workspace.files source layout).1 with
    | error fault => rfl
    | ok summary =>
        show ((if summary.empty = true then _ else _ : Job Outcome) _).1
          = Except.ok (Outcome.ofSummary summary)
        rw [Outcome.ofSummary]
        split
        · rfl
        · rfl

theorem printDirective_result (place : Place) (file inline : Option Text) (layout : Layout) :
    ((do
      let fs := (← get).files
      let source ← Job.ofExcept (directiveText fs file inline)
      printSummary place source layout : Job Outcome) (workspace.putVault place vault)).1
      = directiveOutcome vault workspace.files file inline layout := by
  have hget : (get : Job Workspace) (workspace.putVault place vault)
      = (.ok (workspace.putVault place vault), workspace.putVault place vault) := rfl
  rw [result_bind hget]
  show ((Job.ofExcept _ >>= _) (workspace.putVault place vault)).1 = _
  rw [result_bind (Job.run_ofExcept _ _)]
  exact congrArg _ (funext fun source => printSummary_result place source _)

/-- **WHAT THE COMMAND COMES TO** is told by the stored settings, the shared vault at the root
    that it is given, and the files. -/
theorem summarizeWith_result (given : List (SummarizeOption × Text)) (workspace : Workspace) :
    (summarizeWith given workspace).1 = (do
      let settings ← Settings.load workspace.files workspace.settingsPath
      let root := lastValue? given .vault
      let place ← workspace.placeOfRoot root
      outcomeOf (workspace.sharedVault root place) workspace.files given
        (layoutOf settings given)) := by
  rw [summarizeWith, result_bind (Job.run_loadSettings workspace)]
  refine congrArg _ (funext fun settings => ?_)
  simp only
  cases hplace : workspace.placeOfRoot (lastValue? given .vault) with
  | error fault =>
      rw [result_bind (Workspace.run_openVault_of_error hplace)]
      rfl
  | ok place =>
      rw [result_bind (Workspace.run_openVault_of_ok hplace)]
      show _ = outcomeOf (workspace.sharedVault (lastValue? given .vault) place) workspace.files
        given (layoutOf settings given)
      generalize workspace.sharedVault (lastValue? given .vault) place = vault
      rw [outcomeOf, Except.bind]
      generalize lastValue? given .note = note
      rcases note with _ | _ | ⟨c, rest⟩
      · exact printDirective_result place _ _ _
      · exact printDirective_result place _ _ _
      · exact printNote_result place _ _

end NoteDigest.Console
