import NoteDigest.Proofs.Workspace.Statuses

/-! # Failing — when the summarize command ends by no exit of its own

    The command ends in one of three ways: it prints what it was asked for, it gives up with a
    message, or it fails with a fault that nothing catches.  In a vault without front matter,
    with nothing stored in the settings, it can be told from the tree which of them it is
    (`summarize_endings`).

    A note that is missing, or may not be asked for, is given up with a message.  But a note
    whose bytes are no text fails, and so does every file with a directive that cannot be
    read, be it missing, a directory or no text (`uncaught_faults`). -/

namespace NoteDigest

open NoteDigest.Path Files Console

/-! ## Files with a directive -/

/-- A path leads to a file that holds the source of a directive. -/
def Files.HoldsDirective (fs : Files) (path source : Text) : Prop :=
  Text.hasNul path = false ∧ ∃ bytes, fs.read (parse path) = .ok bytes
    ∧ (Text.ofUtf8? bytes).map Text.unixNewlines = some source

/-- What can be read is there, and not too far down. -/
theorem Files.isPresent_of_read {fs : Files} {path : Path} {bytes : ByteArray}
    (h : fs.read path = .ok bytes) : fs.isOverlong path = false ∧ fs.isPresent path = true := by
  obtain ⟨place, stamp, hfound⟩ := Vault.locate_of_read h
  rw [isOverlong, isPresent, stat, hfound]
  exact ⟨rfl, rfl⟩

namespace Console

variable {vault : Vault} {fs : Files} {path source : Text} {file inline : Option Text}

/-- **A DIRECTIVE IS READ** from a file exactly if the file holds it. -/
theorem readDirective_eq_ok_iff :
    readDirective fs path = .ok source ↔ fs.HoldsDirective path source := by
  rw [readDirective, Files.HoldsDirective]
  constructor
  · intro h
    split at h
    · cases h
    · rename_i hnul
      obtain ⟨-, -, h⟩ := Vault.exists_of_bind_ok h
      split at h
      · cases h
      · obtain ⟨bytes, hread, h⟩ := Vault.exists_of_bind_ok h
        refine ⟨by simpa using hnul, bytes, ?_, ?_⟩
        · cases hfound : fs.read (parse path) with
          | error cause =>
              rw [hfound] at hread
              cases hread
          | ok found =>
              rw [hfound] at hread
              exact congrArg Except.ok (Except.ok.inj hread)
        · split at h
          · rename_i text htext
            rw [htext, ← Except.ok.inj h]
            rfl
          · cases h
  · rintro ⟨hnul, bytes, hread, hsource⟩
    obtain ⟨hshort, hpresent⟩ := isPresent_of_read hread
    obtain ⟨text, htext, rfl⟩ := Option.map_eq_some_iff.mp hsource
    rw [hnul, refuseOverlong, hshort, hpresent, hread]
    simp only [bind, Except.bind, Except.mapError, htext]
    rfl

/-- **NO DIRECTIVE** can be told exactly if none is given in the arguments, and the file that
    is given holds none. -/
theorem directiveText_isError_iff :
    (∃ fault, directiveText fs file inline = .error fault)
      ↔ inline.getD [] = []
        ∧ ∃ path, file = some path ∧ ∀ source, ¬ fs.HoldsDirective path source := by
  have hread : ∀ path, (∃ fault, readDirective fs path = .error fault)
      ↔ ∀ source, ¬ fs.HoldsDirective path source := by
    intro path
    simp only [← readDirective_eq_ok_iff]
    cases readDirective fs path <;> simp
  rcases inline with _ | _ | ⟨c, rest⟩
  · cases file with
    | none => simp [directiveText, pure, Except.pure]
    | some path => simpa [directiveText] using hread path
  · cases file with
    | none => simp [directiveText, pure, Except.pure]
    | some path => simpa [directiveText] using hread path
  · simp [directiveText, pure, Except.pure]

/-! ## Endings -/

/-- The command prints something and is done. -/
def Prints (result : Except Fault Outcome) : Prop :=
  ∃ text, result = .ok (.print text)

/-- The command gives up with a message. -/
def GivesUp (result : Except Fault Outcome) : Prop :=
  ∃ message, message ≠ [] ∧ result = .ok (.refuse message)

/-- The command fails: it ends by a fault that is caught nowhere. -/
def Fails (result : Except Fault Outcome) : Prop :=
  ∃ fault, result = .error fault

/-- The command ends in one of the three ways. -/
def Ends (result : Except Fault Outcome) : Prop :=
  Prints result ∨ GivesUp result ∨ Fails result

@[simp] theorem fails_error (fault : Fault) : Fails (.error fault) :=
  ⟨fault, rfl⟩

@[simp] theorem not_fails_ok (outcome : Outcome) : ¬ Fails (.ok outcome) :=
  nofun

@[simp] theorem not_givesUp_error (fault : Fault) : ¬ GivesUp (.error fault) := by
  rintro ⟨message, -, hsame⟩
  cases hsame

@[simp] theorem not_givesUp_print (text : Text) : ¬ GivesUp (.ok (.print text)) := by
  rintro ⟨message, -, hsame⟩
  cases hsame

@[simp] theorem givesUp_cannotOpen (path : Text) (fault : Fault) :
    GivesUp (.ok (.cannotOpen path fault)) :=
  ⟨"Cannot open note ".toList ++ path ++ [':', ' '] ++ fault.message, nofun, rfl⟩

@[simp] theorem givesUp_idle : GivesUp (.ok .idle) :=
  ⟨_, by decide, rfl⟩

theorem exists_printLine_eq (line : Text) : ∃ text, Outcome.printLine line = .print text :=
  ⟨_, rfl⟩

theorem exists_ofSummary_eq (summary : Summary) :
    ∃ text, Outcome.ofSummary summary = .print text := by
  rw [Outcome.ofSummary]
  split
  · exact ⟨_, rfl⟩
  · exact ⟨_, rfl⟩

/-- Where something is only printed, nothing is given up, and no other failure occurs. -/
theorem ends_map {α : Type} {result : Except Fault α} {print : α → Outcome}
    (hprint : ∀ value, ∃ text, print value = .print text) :
    Ends (result.map print) ∧ ¬ GivesUp (result.map print)
      ∧ (Fails (result.map print) ↔ ∃ fault, result = .error fault) := by
  cases result with
  | ok value =>
      obtain ⟨text, htext⟩ := hprint value
      rw [Except.map, htext]
      exact ⟨.inl ⟨text, rfl⟩, by simp, by simp⟩
  | error fault =>
      rw [Except.map]
      exact ⟨.inr (.inr (fails_error fault)), by simp, by simp⟩

/-! ## Notes that are asked for -/

section Note

variable (vault : Vault) (fs : Files) (path : Text) (layout : Layout)

theorem noteOutcome_ends : Ends (noteOutcome vault fs path layout) := by
  cases hopened : vault.openNote fs path with
  | error fault =>
      rw [noteOutcome_of_unopened hopened]
      split
      · exact .inr (.inl (givesUp_cannotOpen path fault))
      · exact .inr (.inr (fails_error fault))
  | ok opened =>
      rw [noteOutcome_of_opened hopened]
      exact (ends_map exists_printLine_eq).1

/-- **A NOTE IS GIVEN UP** exactly if its path is refused or leads to no file. -/
theorem noteOutcome_givesUp_iff :
    GivesUp (noteOutcome vault fs path layout)
      ↔ ∃ fault, vault.openNote fs path = .error fault
        ∧ (fault.isRefusal = true ∨ fault.isAbsence = true) := by
  cases hopened : vault.openNote fs path with
  | error fault =>
      rw [noteOutcome_of_unopened hopened]
      split
      · rename_i hforgiven
        simpa using hforgiven
      · rename_i hgrave
        simpa using hgrave
  | ok opened =>
      rw [noteOutcome_of_opened hopened]
      refine iff_of_false (ends_map exists_printLine_eq).2.1 ?_
      rintro ⟨fault, hsame, -⟩
      cases hsame

/-- **A NOTE FAILS** exactly if it cannot be opened for any other reason, or if it is opened and
    asks for notes that cannot be listed. -/
theorem noteOutcome_fails_iff (hfs : fs.WellFormed) (hconverts : vault.NotesConvert fs) :
    Fails (noteOutcome vault fs path layout)
      ↔ (∃ fault, vault.openNote fs path = .error fault ∧ fault.isRefusal = false
          ∧ fault.isAbsence = false)
        ∨ ∃ ref text, vault.openNote fs path = .ok (ref, text) ∧ Vault.Asks text
          ∧ vault.Unlisted fs := by
  cases hopened : vault.openNote fs path with
  | error fault =>
      rw [noteOutcome_of_unopened hopened]
      split
      · rename_i hforgiven
        refine iff_of_false (not_fails_ok _) ?_
        rintro (⟨_, hsame, hrefusal, habsence⟩ | ⟨ref, text, hsame, -⟩)
        · cases hsame
          rw [hrefusal, habsence] at hforgiven
          cases hforgiven
        · cases hsame
      · rename_i hgrave
        simpa using hgrave
  | ok opened =>
      obtain ⟨ref, text⟩ := opened
      have hfails := Vault.isError_iff_unlisted (Vault.expand_isOk_iff hfs hconverts text layout)
      rw [noteOutcome_of_opened hopened, (ends_map exists_printLine_eq).2.2, hfails]
      simp

end Note

/-! ## Directives that are asked for -/

section Directive

variable (vault : Vault) (fs : Files) (file inline : Option Text) (layout : Layout)

theorem directiveOutcome_ends : Ends (directiveOutcome vault fs file inline layout) := by
  rw [directiveOutcome]
  cases directiveText fs file inline with
  | error fault => exact .inr (.inr (fails_error fault))
  | ok source =>
      show Ends (summaryOutcome vault fs source layout)
      rw [summaryOutcome]
      split
      · exact .inr (.inl givesUp_idle)
      · exact (ends_map exists_ofSummary_eq).1

/-- **A DIRECTIVE IS GIVEN UP** exactly if it is blank. -/
theorem directiveOutcome_givesUp_iff :
    GivesUp (directiveOutcome vault fs file inline layout)
      ↔ ∃ source, directiveText fs file inline = .ok source ∧ Text.isBlankText source = true := by
  rw [directiveOutcome]
  cases directiveText fs file inline with
  | error fault => simp [bind, Except.bind]
  | ok source =>
      show GivesUp (summaryOutcome vault fs source layout) ↔ _
      rw [summaryOutcome]
      split
      · rename_i hblank
        simpa using hblank
      · rename_i hblank
        refine iff_of_false (ends_map exists_ofSummary_eq).2.1 ?_
        simpa using hblank

/-- **A DIRECTIVE FAILS** exactly if it is to be read from a file that holds none, or if it asks
    for notes that cannot be listed. -/
theorem directiveOutcome_fails_iff (hfs : fs.WellFormed) (hconverts : vault.NotesConvert fs) :
    Fails (directiveOutcome vault fs file inline layout)
      ↔ (inline.getD [] = []
          ∧ ∃ path, file = some path ∧ ∀ source, ¬ fs.HoldsDirective path source)
        ∨ ∃ source, directiveText fs file inline = .ok source ∧ Text.isBlankText source = false
          ∧ (Query.ofSource source).isEmpty = false
          ∧ vault.Unlisted fs := by
  rw [directiveOutcome, ← directiveText_isError_iff]
  cases directiveText fs file inline with
  | error fault => simp [bind, Except.bind]
  | ok source =>
      have hfails := Vault.isError_iff_unlisted
        (Vault.summary_result_isOk_iff hfs hconverts source layout)
      show Fails (summaryOutcome vault fs source layout) ↔ _
      rw [summaryOutcome]
      split
      · rename_i hblank
        simp [hblank, Outcome.idle]
      · rename_i hblank
        rw [(ends_map exists_ofSummary_eq).2.2]
        show (∃ fault, ((vault.provider fs).summary source layout).result = .error fault) ↔ _
        rw [hfails]
        simp [hblank]

end Directive

/-! ## The command -/

/-- How the command ends that is asked for a note. -/
structure NoteEnds (vault : Vault) (fs : Files) (path : Text) (result : Except Fault Outcome) :
    Prop where
  ends : Ends result
  givesUp : GivesUp result ↔ ∃ fault, vault.openNote fs path = .error fault
    ∧ (fault.isRefusal = true ∨ fault.isAbsence = true)
  fails : Fails result ↔ (∃ fault, vault.openNote fs path = .error fault
      ∧ fault.isRefusal = false ∧ fault.isAbsence = false)
    ∨ ∃ ref text, vault.openNote fs path = .ok (ref, text) ∧ Vault.Asks text
      ∧ vault.Unlisted fs

/-- How the command ends that is asked for the summary of a directive. -/
structure DirectiveEnds (vault : Vault) (fs : Files) (file inline : Option Text)
    (result : Except Fault Outcome) : Prop where
  ends : Ends result
  givesUp : GivesUp result ↔ ∃ source, directiveText fs file inline = .ok source
    ∧ Text.isBlankText source = true
  fails : Fails result ↔ (inline.getD [] = [] ∧ ∃ path, file = some path
      ∧ ∀ source, ¬ fs.HoldsDirective path source)
    ∨ ∃ source, directiveText fs file inline = .ok source ∧ Text.isBlankText source = false
      ∧ (Query.ofSource source).isEmpty = false ∧ vault.Unlisted fs

namespace NoteEnds

variable {result : Except Fault Outcome} {top : Place}

/-- **A CIRCLE** at the end of a path is caught nowhere. -/
theorem of_circle (h : NoteEnds vault fs path result)
    (hcircle : vault.resolve fs path = .error .circularLink) : Fails result :=
  h.fails.mpr (.inl ⟨_, Vault.openNote_of_resolve_error hcircle, rfl, rfl⟩)

/-- **TOO MANY LINKS** are caught nowhere either. -/
theorem of_overloads (h : NoteEnds vault fs path result) (hdeep : vault.Overloads fs path) :
    Fails result :=
  h.fails.mpr
    (.inl ⟨_, Vault.openNote_of_resolve_error (Vault.resolve_of_overloads hdeep), rfl, rfl⟩)

/-- **ON A CLEAR PATH** with room for its links it can be told from the tree how the command
    ends. -/
theorem of_clear (h : NoteEnds vault fs path result) (hfs : fs.WellFormed)
    (hwritten : vault.IsWritten) (hroot : vault.rootPlace fs = .ok top)
    (hclear : vault.IsClear fs path) (hroom : ¬ vault.Overloads fs path) :
    (GivesUp result ↔ vault.Refuses fs path ∨ vault.Lacks fs path)
      ∧ (Fails result ↔ vault.Garbles fs path ∨ ∃ text, vault.Keeps fs path text
        ∧ Vault.Asks text ∧ vault.Unlisted fs) := by
  obtain ⟨-, hgivesUp, hfails⟩ := h
  have houtcome := Vault.outcome_of_clear hfs hwritten hroot hclear hroom
  have hrefuses : vault.Refuses fs path → _ := Vault.openNote_of_refuses hroot hclear hroom
  have hlacks := Vault.openNote_of_lacks hfs hwritten hclear
  have hgarbles := Vault.openNote_of_garbles hfs hwritten hclear
  have hkeeps : ∀ text, vault.Keeps fs path text → _ :=
    fun text => Vault.openNote_of_keeps hfs hwritten hclear
  rw [hgivesUp, hfails]
  -- the four outcomes exclude one another by what opening the note comes to
  constructor <;> grind [Fault.isAbsence, Fault.isRefusal]

end NoteEnds

end Console

namespace Workspace

/-- **PLAIN AT A ROOT**: in a tree within reach, a root given as text leads to a directory.
    There is no settings file, and no note in the vault has front matter. -/
structure IsPlainAt (workspace : Workspace) (root : Option Text) (vault : Vault) (top : Place) :
    Prop where
  files : workspace.files.WithinReach
  uses : workspace.Uses root vault
  written : vault.IsWritten
  located : workspace.files.locate .follow vault.root = .ok ⟨top, some .directory⟩
  unset : workspace.files.isFile (Path.ofText workspace.settingsPath) = false
  plain : vault.HasNoFrontMatter workspace.files

end Workspace

namespace Console

variable {workspace : Workspace} {vault : Vault} {top : Place} {path : Text}
  {arguments : List Text} {given : List (SummarizeOption × Text)}

section Plain

variable (h : workspace.IsPlainAt (lastValue? given .vault) vault top)
  (hread : summarizeCommand.read arguments = .values given)

include h hread

theorem summarize_result : (summarize arguments workspace).1
    = outcomeOf vault workspace.files given (layoutOf {} given) :=
  Workspace.summarize_of_uses hread (Workspace.load_of_unset h.unset) h.uses

theorem noteEnds (hne : path ≠ []) (hnote : lastValue? given .note = some path) :
    NoteEnds vault workspace.files path (summarize arguments workspace).1 := by
  obtain ⟨c, rest, rfl⟩ := List.exists_cons_of_ne_nil hne
  rw [summarize_result h hread, outcomeOf, hnote]
  exact ⟨noteOutcome_ends _ _ _ _, noteOutcome_givesUp_iff _ _ _ _,
    noteOutcome_fails_iff _ _ _ _ h.files.toWellFormed h.plain.notesConvert⟩

theorem directiveEnds (hnote : (lastValue? given .note).getD [] = []) :
    DirectiveEnds vault workspace.files (lastValue? given .directiveFile)
      (lastValue? given .directive) (summarize arguments workspace).1 := by
  have hresult : outcomeOf vault workspace.files given (layoutOf {} given)
      = directiveOutcome vault workspace.files (lastValue? given .directiveFile)
          (lastValue? given .directive) (layoutOf {} given) := by
    rw [outcomeOf]
    split
    · rename_i hsome
      rw [hsome] at hnote
      cases hnote
    · rfl
  rw [summarize_result h hread, hresult]
  exact ⟨directiveOutcome_ends _ _ _ _ _, directiveOutcome_givesUp_iff _ _ _ _ _,
    directiveOutcome_fails_iff _ _ _ _ _ h.files.toWellFormed h.plain.notesConvert⟩

end Plain

/-- **HOW THE COMMAND ENDS**, by any arguments:

    * it tells how it is used, if it is asked for that, or if the arguments make no sense;
    * asked for a note in a plain vault, it fails exactly if the note cannot be opened though
      its path is neither refused nor leads to no file, or if directives in it ask for notes
      that cannot be listed;
    * so it does for a path that ends in a circle, or has more links open at once than there is
      room for; and on any other path on which no link turns in a circle, if the file is too
      far down, or its bytes are no text;
    * asked for a summary there, it fails exactly if the directive is to be read from a file
      that holds none, or if it asks for notes that cannot be listed;
    * the notes cannot be listed exactly if folders stand too deep in one another, or the path
      of a folder or of what has the name of a note is too long;
    * otherwise it prints something, or gives up with a message. -/
theorem summarize_endings (workspace : Workspace) (arguments : List Text) :
    (summarizeCommand.read arguments = .help →
        (summarize arguments workspace).1 = .ok ⟨[], .help⟩)
      ∧ (summarizeCommand.read arguments = .misuse →
        (summarize arguments workspace).1 = .ok ⟨[], .misuse⟩)
      ∧ ∀ given vault top, summarizeCommand.read arguments = .values given →
        workspace.IsPlainAt (lastValue? given .vault) vault top →
          (∀ path, path ≠ [] → lastValue? given .note = some path →
            NoteEnds vault workspace.files path (summarize arguments workspace).1
            ∧ (vault.resolve workspace.files path = .error .circularLink →
                Fails (summarize arguments workspace).1)
            ∧ (vault.Overloads workspace.files path →
                Fails (summarize arguments workspace).1)
            ∧ (vault.IsClear workspace.files path → ¬ vault.Overloads workspace.files path →
                (GivesUp (summarize arguments workspace).1
                  ↔ vault.Refuses workspace.files path ∨ vault.Lacks workspace.files path)
                ∧ (Fails (summarize arguments workspace).1
                  ↔ vault.Garbles workspace.files path
                    ∨ ∃ text, vault.Keeps workspace.files path text ∧ Vault.Asks text
                      ∧ vault.Unlisted workspace.files)))
          ∧ ((lastValue? given .note).getD [] = [] →
            DirectiveEnds vault workspace.files (lastValue? given .directiveFile)
              (lastValue? given .directive) (summarize arguments workspace).1)
          ∧ (vault.Unlisted workspace.files
            ↔ Vault.nestsTooDeep workspace.files top = true
              ∨ vault.anyOverlong workspace.files top = true) := by
  refine ⟨?_, ?_, fun given vault top hread h =>
    ⟨?_, directiveEnds h hread, Vault.unlisted_iff_of_locate h.located⟩⟩
  · intro hread
    rw [summarize, hread]
    rfl
  · intro hread
    rw [summarize, hread]
    rfl
  · intro path hne hnote
    have hends := noteEnds h hread hne hnote
    have hroot := (Vault.rooted_of_locate h.located).rootPlace h.files.toWellFormed
    exact ⟨hends, hends.of_circle, hends.of_overloads,
      hends.of_clear h.files.toWellFormed h.written hroot⟩

end Console

namespace Workspace

theorem isPlainAt_pair : pair.IsPlainAt none (.ofText "vault".toList) ["vault".toList] where
  files := isPlain_pair.files
  uses := isPlain_pair.uses
  written := isPlain_pair.written
  located := rfl
  unset := isPlain_pair.unset
  plain := isPlain_pair.plain

/-- A note that is not there is given up, and so is the empty directive. -/
theorem pair_endings :
    pair.IsPlainAt none (.ofText "vault".toList) ["vault".toList]
      ∧ GivesUp (Console.summarize ["--note=x/d.md".toList] pair).1
      ∧ GivesUp (Console.summarize [] pair).1 := by
  refine ⟨isPlainAt_pair, ?_, ?_⟩
  · have hread : summarizeCommand.read ["--note=x/d.md".toList]
        = .values [(.note, "x/d.md".toList)] := by decide
    obtain ⟨-, -, hends⟩ := summarize_endings pair ["--note=x/d.md".toList]
    obtain ⟨hnote, -⟩ := hends _ _ _ hread isPlainAt_pair
    obtain ⟨-, -, -, hclear⟩ := hnote _ (by decide) rfl
    refine (hclear (isClear_pair (by decide)) (not_overloads_pair (by decide))).1.mpr (.inr ?_)
    exact ⟨["vault".toList, "x".toList, "d.md".toList], by decide +kernel, by decide +kernel,
      by decide +kernel⟩
  · obtain ⟨-, -, hends⟩ := summarize_endings pair []
    obtain ⟨-, hdirective, -⟩ := hends [] _ _ rfl isPlainAt_pair
    exact (hdirective rfl).givesUp.mpr ⟨[], rfl, rfl⟩

/-! ## Faults that are caught nowhere -/

/-- A vault with a note that is no text. -/
def garbled : Workspace where
  files := ⟨[(["vault".toList], .directory),
    (["vault".toList, "b.md".toList], .file ⟨#[255]⟩ (.clock 1))], []⟩
  vaultPath := "vault".toList
  settingsPath := "settings.json".toList

theorem isPlainAt_garbled : garbled.IsPlainAt none (.ofText "vault".toList) ["vault".toList] where
  files := ⟨⟨by decide +kernel, by decide, plain_nil _, rfl⟩, by decide⟩
  uses := ⟨["vault".toList], by decide +kernel, rfl⟩
  written := ⟨_, rfl⟩
  located := rfl
  unset := by decide +kernel
  plain := by
    have hnotes : (Vault.ofText "vault".toList).notes garbled.files
        = .ok [⟨"b.md".toList, ['b']⟩] :=
      Vault.notes_of_ascending rfl (by decide +kernel) (by decide +kernel)
        (List.pairwise_singleton _ _)
    have hlines : (Vault.ofText "vault".toList).lines garbled.files ⟨"b.md".toList, ['b']⟩
        = .error (.undecodable "b.md".toList) := by decide +kernel
    intro refs hrefs ref href lines hok
    obtain rfl := Except.ok.inj (hnotes.symm.trans hrefs)
    obtain rfl := List.mem_singleton.mp href
    cases hlines.symm.trans hok

/-- **UNCAUGHT**: in a plain vault, a directive in a file that is missing, in a directory, or in
    a file whose bytes are no text, ends the command by a fault that is caught nowhere; and so
    does a note whose bytes are no text. -/
theorem uncaught_faults :
    garbled.IsPlainAt none (.ofText "vault".toList) ["vault".toList]
      ∧ (Console.summarize ["--directive-file=missing.txt".toList] garbled).1
        = .error (.noDirective "missing.txt".toList)
      ∧ (Console.summarize ["--directive-file=vault".toList] garbled).1 = .error (.file .isDirectory)
      ∧ (Console.summarize ["--directive-file=vault/b.md".toList] garbled).1 = .error .badBytes
      ∧ (Console.summarize ["--note=b.md".toList] garbled).1 = .error (.undecodable "b.md".toList) :=
  ⟨isPlainAt_garbled, by decide +kernel, by decide +kernel, by decide +kernel, by decide +kernel⟩

end Workspace
end NoteDigest
