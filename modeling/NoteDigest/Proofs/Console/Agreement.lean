import NoteDigest.Proofs.Console.Arguments
import NoteDigest.Proofs.Settings.Saving
import NoteDigest.Proofs.Vault.Bypassing
import NoteDigest.Proofs.Workspace.Serving

/-! # Agreement — the command line says what the server says

    A note is printed by the command and answered by the server, and so is the summary of a
    directive.  Both go to the shared vault at the usual root, but each reads its layout in a
    way of its own: the server takes the stored toggles, and the command takes them less what
    its arguments turn off.

    So the command says what a server says that has these toggles stored and the same notes
    (`command_agrees_with_server`).  A server has the same notes if its settings stand in
    another file of the same tree, or if the file that holds them is one that no path in the
    vault leads to. -/

namespace NoteDigest

open NoteDigest.Path Files Console

/-! ## Arguments -/

namespace Console

/-- A part of the layout that an argument turns off. -/
inductive Part
  | link
  | callout
  deriving DecidableEq

namespace Part

/-- The option that turns a part off. -/
def form : Part → OptionForm SummarizeOption
  | .link => { key := .noLink, long := "--no-link".toList }
  | .callout => { key := .noCallout, long := "--no-callout".toList }

/-- What the argument that turns a part off gives. -/
def entry (part : Part) : SummarizeOption × Text :=
  (part.form.key, [])

/-- The patch that turns parts off. -/
def off (parts : List Part) : SettingsPatch where
  includeLink := if .link ∈ parts then some false else none
  includeCallout := if .callout ∈ parts then some false else none

theorem gives (part : Part) : summarizeCommand.Gives part.form.long part.entry := by
  cases part with
  | link =>
      have htakes : summarizeCommand.Takes (form .link) := ⟨rfl, _, _, rfl⟩
      exact Command.gives_name htakes rfl
  | callout =>
      have htakes : summarizeCommand.Takes (form .callout) := ⟨rfl, _, _, rfl⟩
      exact Command.gives_name htakes rfl

theorem key_injective {part other : Part} (h : part.form.key = other.form.key) : part = other := by
  revert h
  cases part <;> cases other <;> decide

end Part

variable {argument : Text} {entry : SummarizeOption × Text} {before behind : List Part}
  {key : SummarizeOption}

/-- An argument with others around it that turn parts off. -/
def among (before : List Part) (argument : Text) (behind : List Part) : List Text :=
  before.map (·.form.long) ++ argument :: behind.map (·.form.long)

/-- What such arguments give. -/
def givenAmong (before : List Part) (entry : SummarizeOption × Text) (behind : List Part) :
    List (SummarizeOption × Text) :=
  before.map Part.entry ++ entry :: behind.map Part.entry

theorem forall_givenAmong {p : SummarizeOption × Text → Prop} (hentry : p entry)
    (hparts : ∀ part ∈ before ++ behind, p part.entry) :
    ∀ other ∈ givenAmong before entry behind, p other := by
  intro other hother
  rcases List.mem_append.mp hother with hbefore | hother
  · obtain ⟨part, hpart, rfl⟩ := List.mem_map.mp hbefore
    exact hparts part (List.mem_append_left _ hpart)
  · rcases List.mem_cons.mp hother with rfl | hbehind
    · exact hentry
    · obtain ⟨part, hpart, rfl⟩ := List.mem_map.mp hbehind
      exact hparts part (List.mem_append_right _ hpart)

theorem read_among (h : summarizeCommand.Gives argument entry) (hhelp : entry.1 ≠ .help) :
    summarizeCommand.read (among before argument behind)
      = .values (givenAmong before entry behind) := by
  have hparts : ∀ parts : List Part, List.Forall₂ summarizeCommand.Gives
      (parts.map (·.form.long)) (parts.map Part.entry) := by
    intro parts
    rw [List.forall₂_map_left_iff, List.forall₂_map_right_iff, List.forall₂_same]
    exact fun part _ => part.gives
  refine Command.read_of_gives (List.rel_append (hparts before) (.cons h (hparts behind))) ?_
  refine forall_givenAmong hhelp fun part _ => ?_
  cases part <;> exact nofun

/-- The option is none that turns a part off. -/
def TurnsNothingOff (key : SummarizeOption) : Prop :=
  key ≠ .noLink ∧ key ≠ .noCallout

instance : Decidable (TurnsNothingOff key) :=
  inferInstanceAs (Decidable (_ ∧ _))

theorem TurnsNothingOff.ne_key (h : TurnsNothingOff key) (part : Part) : part.form.key ≠ key := by
  cases part with
  | link => exact h.1.symm
  | callout => exact h.2.symm

/-- The argument gives its value, whatever others turn off. -/
theorem lastValue?_givenAmong (hkey : TurnsNothingOff key) (value : Text) :
    lastValue? (givenAmong before (key, value) behind) key = some value := by
  refine lastValue?_append_cons fun other hother => ?_
  obtain ⟨part, -, rfl⟩ := List.mem_map.mp hother
  exact hkey.ne_key part

/-- No other option is given a value. -/
theorem lastValue?_givenAmong_of_ne {other : SummarizeOption} (hkey : TurnsNothingOff key)
    (hne : other ≠ key) (value : Text) :
    lastValue? (givenAmong before (other, value) behind) key = none :=
  lastValue?_eq_none (forall_givenAmong hne fun part _ => hkey.ne_key part)

theorem isGiven_givenAmong (hkey : TurnsNothingOff key) (value : Text) (part : Part) :
    isGiven (givenAmong before (key, value) behind) part.form.key
      = decide (part ∈ before ++ behind) := by
  rw [Bool.eq_iff_iff, isGiven_iff, decide_eq_true_iff]
  constructor
  · rintro ⟨other, hother, hsame⟩
    revert other
    refine forall_givenAmong (fun hsame => absurd hsame.symm (hkey.ne_key part)) ?_
    intro other hmem hsame
    rwa [← Part.key_injective hsame]
  · intro hpart
    refine ⟨part.entry, ?_, rfl⟩
    rcases List.mem_append.mp hpart with hbefore | hbehind
    · exact List.mem_append_left _ (List.mem_map_of_mem hbefore)
    · exact List.mem_append_right _ (List.mem_cons_of_mem _ (List.mem_map_of_mem hbehind))

/-- **THE LAYOUT** is that of the stored settings with the parts turned off. -/
theorem layoutOf_givenAmong (settings : Settings) (hkey : TurnsNothingOff key) (value : Text) :
    layoutOf settings (givenAmong before (key, value) behind)
      = (settings.apply (Part.off (before ++ behind))).layout := by
  have hlink : isGiven (givenAmong before (key, value) behind) .noLink
      = decide (.link ∈ before ++ behind) := isGiven_givenAmong hkey value .link
  have hcallout : isGiven (givenAmong before (key, value) behind) .noCallout
      = decide (.callout ∈ before ++ behind) := isGiven_givenAmong hkey value .callout
  rw [layoutOf, hlink, hcallout, Settings.layout, Settings.apply, Part.off]
  by_cases h : .link ∈ before ++ behind <;> by_cases h' : .callout ∈ before ++ behind <;>
    simp [h, h']

end Console

/-! ## Requests for a summary -/

namespace Web

variable {body source : Text}

/-- The request for the summary of a directive. -/
def summaryRequest (body : Text) : Request :=
  ⟨"POST".toList, "/api/summary".toList, body⟩

/-- The body of a request for a summary holds the source of a directive, and no layout. -/
def Holds (body source : Text) : Prop :=
  payload Payload.summaryRequest body = .ok (source, none)

theorem holds_of_toOption
    (h : (payload Payload.summaryRequest body).toOption = some (source, none)) :
    Holds body source := by
  rw [Holds]
  cases hbody : payload Payload.summaryRequest body with
  | error answer =>
      rw [hbody] at h
      cases h
  | ok given =>
      rw [hbody] at h
      exact congrArg Except.ok (Option.some.inj h)

theorem answer_summaryRequest (h : Holds body source) :
    answer (summaryRequest body) = postSummary source none := by
  show withPayload Payload.summaryRequest body _ = _
  rw [withPayload, h]

/-- **A SUMMARY IS ANSWERED** from the shared vault at the usual root, in the layout that is
    stored. -/
theorem answer_summaryRequest_result (h : Holds body source) (server : Workspace) :
    (answer (summaryRequest body) server).1 = (do
      let settings ← Settings.load server.files server.settingsPath
      let place ← server.placeOfRoot none
      let summary ← ((server.sharedVault none place).summary server.files source settings.layout).1
      return .ok summary.json) := by
  rw [answer_summaryRequest h, postSummary]
  simp only [result_bind (Workspace.run_storedLayout server)]
  cases Settings.load server.files server.settingsPath with
  | error fault => rfl
  | ok settings =>
      show ((Job.openVault none >>= _) server).1 = _
      cases hplace : server.placeOfRoot none with
      | error fault =>
          rw [result_bind (Workspace.run_openVault_of_error hplace)]
          rfl
      | ok place =>
          rw [result_bind (Workspace.run_openVault_of_ok hplace)]
          show ((Job.useVault place _ >>= _) (server.putVault place _)).1 = _
          rw [result_bind (Workspace.run_useVault server place _ _)]
          rfl

/-- A request that is fulfilled has an answer. -/
theorem serve_of_status {request : Request} {server : Workspace}
    (h : (serve request server).1.status = 200) :
    (answer request server).1 = .ok (serve request server).1 := by
  rw [serve] at h ⊢
  split at h
  · rename_i hrun
    rw [hrun]
  · exact absurd h (by decide : 500 ≠ 200)

end Web

/-! ## The same notes -/

namespace Workspace

variable {workspace server : Workspace} {vault : Vault} {settings : Settings} {path source : Text}
  {before behind : List Part} {ref : NoteRef}

/-- A server has the notes of a workspace: the vault at its usual root is one that opens the
    same notes, and provides the same to summaries, as the one of the workspace. -/
def SharesNotes (workspace server : Workspace) : Prop :=
  ∀ vault', server.Uses none vault' → ∃ vault, workspace.Uses none vault
    ∧ (∀ path, vault'.openNote server.files path = vault.openNote workspace.files path)
    ∧ vault'.provider server.files = vault.provider workspace.files

/-- Settings in another file of the same tree change no notes. -/
theorem sharesNotes_of_settingsPath (workspace : Workspace) (settingsPath : Text) :
    workspace.SharesNotes { workspace with settingsPath } :=
  fun vault huses => ⟨vault, huses, fun _ => rfl, rfl⟩

/-- **NEITHER DO SETTINGS** in a file that the vault bypasses. -/
theorem sharesNotes_of_rewritten {files : Files} {place : Place}
    (hfs : workspace.files.WellFormed) (hfs' : files.WellFormed)
    (hrewritten : workspace.files.Rewritten files place)
    (hbypasses : ∀ vault, workspace.Uses none vault → vault.Bypasses workspace.files place) :
    workspace.SharesNotes { workspace with files } := by
  rintro vault ⟨top, htop, rfl⟩
  have hplace : workspace.placeOfRoot none = .ok top := by
    rw [placeOfRoot, ← hrewritten.alike.placeOf_eq hrewritten.count]
    exact htop
  have huses : workspace.Uses none (workspace.sharedVault none top) := ⟨top, hplace, rfl⟩
  refine ⟨_, huses, ?_, ?_⟩
  · exact (hbypasses _ huses).openNote_eq hrewritten
  · exact (hbypasses _ huses).provider_eq hrewritten hfs hfs'

/-! ## Agreement -/

/-- The command prints what a server answers, if parts of the layout are turned off by its
    arguments. -/
structure PrintsAnswers (workspace server : Workspace) (before behind : List Part) : Prop where
  note : ∀ path body, path ≠ [] → '\n' ∉ path →
    (Web.serve (Web.jsonRequest path body) server).1.status = 200 →
      ∃ (ref : NoteRef) (markdown : Text),
        (Web.serve (Web.jsonRequest path body) server).1 = .ok (ref.json (some markdown))
          ∧ (Console.summarize (among before ("--note=".toList ++ path) behind) workspace).1
            = .ok (.printLine markdown)
  summary : ∀ source body, Web.Holds body source → Text.isBlankText source = false →
    ¬ ['\\', 'n'] <:+: source →
    (Web.serve (Web.summaryRequest body) server).1.status = 200 →
      ∃ found : Summary, (Web.serve (Web.summaryRequest body) server).1 = .ok found.json
        ∧ (Console.summarize (among before ("--directive=".toList ++ source) behind) workspace).1
          = .ok (if found.empty then .printLine emptyMessage else .print found.markdown)

/-- With one argument for a vault nothing else is done than in the vault at the usual root. -/
theorem summarize_among {argument value : Text} {key : SummarizeOption}
    (hload : Settings.load workspace.files workspace.settingsPath = .ok settings)
    (huses : workspace.Uses none vault) (hgives : summarizeCommand.Gives argument (key, value))
    (hhelp : key ≠ .help) (hvault : key ≠ .vault) (hkey : TurnsNothingOff key) :
    (Console.summarize (among before argument behind) workspace).1
      = outcomeOf vault workspace.files (givenAmong before (key, value) behind)
          (settings.apply (Part.off (before ++ behind))).layout := by
  have hroot : lastValue? (givenAmong before (key, value) behind) .vault = none :=
    lastValue?_givenAmong_of_ne (by decide) hvault value
  rw [← layoutOf_givenAmong settings hkey value]
  exact summarize_of_uses (read_among hgives hhelp) hload (hroot ▸ huses)

theorem gives_note (path : Text) :
    summarizeCommand.Gives ("--note=".toList ++ path) (.note, path) := by
  have htakes : summarizeCommand.Takes
      { key := .note, long := "--note".toList, takesValue := true } := ⟨rfl, _, _, rfl⟩
  exact Command.gives_value htakes rfl (by decide) path

theorem gives_directive (source : Text) :
    summarizeCommand.Gives ("--directive=".toList ++ source) (.directive, source) := by
  have htakes : summarizeCommand.Takes
      { key := .directive, long := "--directive".toList, takesValue := true } := ⟨rfl, _, _, rfl⟩
  exact Command.gives_value htakes rfl (by decide) source

section Prints

variable (hload : Settings.load workspace.files workspace.settingsPath = .ok settings)
  (hshares : workspace.SharesNotes server)
  (hserver : Settings.load server.files server.settingsPath
    = .ok (settings.apply (Part.off (before ++ behind))))

include hload hshares hserver

/-- **A NOTE** that the server answers is printed on a line. -/
theorem prints_note (hne : path ≠ []) {shown : Text}
    (hseen : (server.viewed path).1 = .ok (ref, shown)) :
    (Console.summarize (among before ("--note=".toList ++ path) behind) workspace).1
      = .ok (.printLine shown) := by
  obtain ⟨place, hplace, hseen⟩ : ∃ place, server.placeOfRoot none = .ok place
      ∧ ((server.sharedVault none place).viewed server.files server.settingsPath path).1
        = .ok (ref, shown) := by
    cases hplace : server.placeOfRoot none with
    | error fault =>
        rw [viewed, hplace] at hseen
        cases hseen
    | ok place =>
        rw [viewed_of_placeOfRoot hplace] at hseen
        exact ⟨place, rfl, hseen⟩
  obtain ⟨text, stored, hopened, hstored, hshown⟩ := Vault.viewed_eq_ok hseen
  obtain rfl := Except.ok.inj (hserver.symm.trans hstored)
  obtain ⟨vault, huses, hsame, hprovider⟩ := hshares _ ⟨place, hplace, rfl⟩
  rw [hsame] at hopened
  have hexpanded : (vault.expand workspace.files text
      (settings.apply (Part.off (before ++ behind))).layout).1 = .ok shown := by
    rw [← hshown, Vault.expand, Vault.expand, hprovider]
    rfl
  obtain ⟨c, rest, rfl⟩ := List.exists_cons_of_ne_nil hne
  have hnote : TurnsNothingOff .note := by decide
  rw [summarize_among hload huses (gives_note _) (by decide) (by decide) hnote, outcomeOf,
    lastValue?_givenAmong hnote]
  show noteOutcome vault workspace.files (c :: rest) _ = _
  rw [noteOutcome_of_opened hopened, hexpanded]
  rfl

/-- **A SUMMARY** that the server answers is printed as it is, or the message that there is
    none. -/
theorem prints_summary {body : Text} (hbody : Web.Holds body source)
    (hblank : Text.isBlankText source = false) (hescape : ¬ ['\\', 'n'] <:+: source)
    {answer : Web.Answer} (hanswer : (Web.answer (Web.summaryRequest body) server).1 = .ok answer) :
    ∃ found : Summary, answer = .ok found.json
      ∧ (Console.summarize (among before ("--directive=".toList ++ source) behind) workspace).1
        = .ok (if found.empty then .printLine emptyMessage else .print found.markdown) := by
  rw [Web.answer_summaryRequest_result hbody] at hanswer
  obtain ⟨stored, hstored, hanswer⟩ := Vault.exists_of_bind_ok hanswer
  obtain rfl := Except.ok.inj (hserver.symm.trans hstored)
  obtain ⟨place, hplace, hanswer⟩ := Vault.exists_of_bind_ok hanswer
  obtain ⟨found, hfound, hanswer⟩ := Vault.exists_of_bind_ok hanswer
  obtain ⟨vault, huses, -, hprovider⟩ := hshares _ ⟨place, hplace, rfl⟩
  refine ⟨found, (Except.ok.inj hanswer).symm, ?_⟩
  have hsummary : ((vault.provider workspace.files).summary source
      (settings.apply (Part.off (before ++ behind))).layout).result = .ok found := by
    rw [← hprovider]
    exact hfound
  have hne : source ≠ [] := by
    rintro rfl
    cases hblank
  obtain ⟨c, rest, rfl⟩ := List.exists_cons_of_ne_nil hne
  have hdirective : TurnsNothingOff .directive := by decide
  have hnote : lastValue? (givenAmong before (.directive, c :: rest) behind) .note = none :=
    lastValue?_givenAmong_of_ne (by decide) (by decide) _
  have hfile : lastValue? (givenAmong before (.directive, c :: rest) behind) .directiveFile
      = none := lastValue?_givenAmong_of_ne (by decide) (by decide) _
  rw [summarize_among hload huses (gives_directive _) (by decide) (by decide) hdirective, outcomeOf,
    hnote, hfile, lastValue?_givenAmong hdirective]
  show summaryOutcome vault workspace.files (Text.replace ['\\', 'n'] ['\n'] (c :: rest)) _ = _
  rw [Text.replace_eq_self hescape, summaryOutcome, hblank]
  show (((vault.provider workspace.files).summary (c :: rest) _).result).map Outcome.ofSummary = _
  rw [hsummary]
  show Except.ok (Outcome.ofSummary found) = _
  rw [Outcome.ofSummary]
  split
  · rename_i hempty
    rw [Provider.message_of_empty hsummary hempty]
    rfl
  · rfl

theorem printsAnswers : workspace.PrintsAnswers server before behind where
  note := by
    intro path body hne hline hstatus
    rw [serve_of_viewNote (Web.answer_jsonRequest hline body)] at hstatus ⊢
    cases hseen : (server.viewed path).1 with
    | error answer =>
        rw [hseen] at hstatus
        exact absurd hstatus (turnsDown_viewed server path answer hseen).status_ne
    | ok found =>
        exact ⟨found.1, found.2, rfl, prints_note hload hshares hserver hne hseen⟩
  summary := by
    intro source body hbody hblank hescape hstatus
    exact prints_summary hload hshares hserver hbody hblank hescape (Web.serve_of_status hstatus)

end Prints

/-- **THE COMMAND AGREES WITH THE SERVER**, where the stored settings can be loaded:

    * it prints what a request for the same thing is answered;
    * with parts of the layout turned off by its arguments, it prints what a server answers
      that has the same notes, and these parts turned off in its stored settings;
    * a server has the same notes if its settings stand in another file of the same tree;
    * it does so too if the trees are the same but for what one file holds, and that is a file
      that no path in the vault leads to. -/
theorem command_agrees_with_server
    (hload : Settings.load workspace.files workspace.settingsPath = .ok settings) :
    workspace.PrintsAnswers workspace [] []
      ∧ (∀ before behind server, workspace.SharesNotes server →
          Settings.load server.files server.settingsPath
            = .ok (settings.apply (Part.off (before ++ behind))) →
          workspace.PrintsAnswers server before behind)
      ∧ (∀ settingsPath, workspace.SharesNotes { workspace with settingsPath })
      ∧ ∀ files place, workspace.files.WellFormed → files.WellFormed →
          workspace.files.Rewritten files place →
          (∀ vault, workspace.Uses none vault → vault.Bypasses workspace.files place) →
          workspace.SharesNotes { workspace with files } := by
  have hself : workspace.SharesNotes workspace :=
    sharesNotes_of_settingsPath workspace workspace.settingsPath
  refine ⟨printsAnswers hload hself hload, ?_, sharesNotes_of_settingsPath workspace, ?_⟩
  · intro before behind server hshares hserver
    exact printsAnswers hload hshares hserver
  · intro files place hfs hfs' hrewritten hbypasses
    exact sharesNotes_of_rewritten hfs hfs' hrewritten hbypasses

/-- A vault with one note, beside a file with settings. -/
def desk (settings : Settings) : Workspace where
  files := ⟨[(["vault".toList], .directory),
    (["vault".toList, "a.md".toList], .file (Text.toUtf8 "#t x\n".toList) (.clock 1)),
    (["settings.json".toList], .file (Text.toUtf8 settings.text) (.clock 1))], []⟩
  vaultPath := "vault".toList
  settingsPath := "settings.json".toList

theorem wellFormed_desk (settings : Settings) : (desk settings).files.WellFormed where
  names := by
    have hnames : ∀ place ∈ [["vault".toList], ["vault".toList, "a.md".toList],
        ["settings.json".toList]], ∀ name ∈ place, IsName name := by decide
    exact fun entry hentry => hnames entry.1 (List.mem_map_of_mem hentry)
  proper := by simp [desk, Entry.isProper]
  here := plain_nil _
  directory := rfl

theorem load_desk (settings : Settings) :
    Settings.load (desk settings).files (desk settings).settingsPath = .ok settings := by
  have hread : (desk settings).files.read (Path.ofText (desk settings).settingsPath)
      = .ok (Text.toUtf8 settings.text) := rfl
  rw [Settings.load_of_read hread, Settings.ofBytes_text]

theorem rewritten_desk (settings settings' : Settings) :
    (desk settings).files.Rewritten (desk settings').files ["settings.json".toList] where
  same := by
    refine ⟨rfl, rfl, fun other hother => ?_⟩
    rw [get?, get?]
    simp only [desk, List.lookup_cons, beq_false_of_ne hother]
  before := ⟨_, _, rfl⟩
  after := ⟨_, _, rfl⟩
  count := rfl

/-- The vault bypasses the settings: there are no links. -/
theorem desk_bypasses (settings : Settings) {vault : Vault}
    (huses : (desk settings).Uses none vault) :
    vault.Bypasses (desk settings).files ["settings.json".toList] := by
  have hlinks : ∀ place name, (desk settings).files.linkAt? place name = none := by
    intro place name
    refine linkAt?_eq_none fun target htarget => ?_
    have hentry := mem_entries_of_get? (by simp) htarget
    simp [desk] at hentry
  have hroot : (Vault.ofText "vault".toList).rootPlace (desk settings).files
      = .ok ["vault".toList] := rfl
  obtain ⟨place, hplace, rfl⟩ := huses
  exact Vault.bypasses_of_clear (wellFormed_desk settings) ⟨_, rfl⟩ hroot
    (fun path top _ => isClear_of_no_link hlinks _) (by decide)

/-- The command prints the note that is answered.  Where callouts are off in the settings and
    links by an argument, it prints the summary that is answered where both are off in the
    settings. -/
theorem desk_prints :
    (∃ (ref : NoteRef) (markdown : Text),
      (Web.serve (Web.jsonRequest "a.md".toList []) (desk { includeCallout := false })).1
        = .ok (ref.json (some markdown))
      ∧ (Console.summarize ["--note=a.md".toList] (desk { includeCallout := false })).1
        = .ok (.printLine markdown))
    ∧ ∃ found : Summary,
      (Web.serve (Web.summaryRequest "\x7b\"source\": \"tags: #t\"\x7d".toList)
          (desk { includeLink := false, includeCallout := false })).1 = .ok found.json
      ∧ (Console.summarize ["--no-link".toList, "--directive=tags: #t".toList]
          (desk { includeCallout := false })).1
        = .ok (if found.empty then .printLine emptyMessage else .print found.markdown) := by
  obtain ⟨hprints, hagree, -, hshares⟩ :=
    command_agrees_with_server (load_desk { includeCallout := false })
  constructor
  · exact hprints.note "a.md".toList [] (by decide) (by decide) (by decide +kernel)
  · have hserver : (desk { includeCallout := false }).SharesNotes
        (desk { includeLink := false, includeCallout := false }) :=
      hshares _ _ (wellFormed_desk _) (wellFormed_desk _) (rewritten_desk _ _)
        fun vault => desk_bypasses _
    have hbody : Web.Holds "\x7b\"source\": \"tags: #t\"\x7d".toList "tags: #t".toList :=
      Web.holds_of_toOption (by decide +kernel)
    exact (hagree [.link] [] _ hserver (load_desk _)).summary _ _ hbody (by decide) (by decide)
      (by decide +kernel)

end Workspace
end NoteDigest
