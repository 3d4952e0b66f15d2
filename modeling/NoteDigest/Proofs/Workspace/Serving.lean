import NoteDigest.Proofs.Console.Running
import NoteDigest.Proofs.Workspace.Registry

/-! # Serving — which notes can be seen from outside

    Single notes are handed out by two requests to the server and by one command.  All three
    look a path up in the shared vault at a root, and show the text of the note found there
    and no other, with its directives replaced (`shows_of_viewed`, `shows_of_noteOutcome`).  What
    they show is listed exactly when a way down from the root reaches it
    (`lookup_agrees_with_listing`).

    Nothing asks for the name of a note.  A file below the root with any name is handed out,
    though it is not listed (`unlisted_served`). -/

namespace NoteDigest

open NoteDigest.Path Files

/-! ## The server -/

/-- A text is that of the note that a path is taken for in a vault, with its directives
    replaced. -/
def Vault.Shows (vault : Vault) (fs : Files) (path : Text) (ref : NoteRef) (shown : Text) : Prop :=
  ∃ text layout, vault.noteRef fs path = .ok ref ∧ vault.readText fs ref = .ok text
    ∧ (vault.expand fs text layout).1 = .ok shown

theorem Vault.shows_of_viewed {vault : Vault} {fs : Files} {settingsPath path shown : Text}
    {ref : NoteRef} (h : (vault.viewed fs settingsPath path).1 = .ok (ref, shown)) :
    vault.Shows fs path ref shown := by
  obtain ⟨text, settings, hopened, -, hshown⟩ := viewed_eq_ok h
  obtain ⟨href, htext⟩ := openNote_eq_ok hopened
  exact ⟨text, settings.layout, href, htext, hshown⟩

namespace Workspace

variable {workspace after : Workspace} {root : Option Text} {path : Text} {ref : NoteRef}
  {vault : Vault} {place : Place}

/-- The shared vault at a root. -/
def Uses (workspace : Workspace) (root : Option Text) (vault : Vault) : Prop :=
  ∃ place, workspace.placeOfRoot root = .ok place ∧ vault = workspace.sharedVault root place

/-- **WHAT IS SEEN** is shown of the note that the path is taken for. -/
theorem shows_of_viewed {shown : Text} (h : (workspace.viewed path).1 = .ok (ref, shown)) :
    ∃ vault, workspace.Uses none vault ∧ vault.Shows workspace.files path ref shown := by
  cases hplace : workspace.placeOfRoot none with
  | error fault =>
      rw [viewed, hplace] at h
      cases h
  | ok place =>
      refine ⟨workspace.sharedVault none place, ⟨place, hplace, rfl⟩, ?_⟩
      rw [viewed_of_placeOfRoot hplace] at h
      exact Vault.shows_of_viewed h

/-- **A REQUEST FOR A NOTE** that is fulfilled is answered with a view that shows the note that
    its path is taken for. -/
theorem serve_view {request : Web.Request} {view : NoteRef → Text → Web.Answer}
    (hanswer : Web.answer request = if request.method == "GET".toList then
      Web.viewNote path view else return .wrongMethod)
    (h : (Web.serve request workspace).1.status = 200) :
    ∃ vault ref shown, workspace.Uses none vault ∧ vault.Shows workspace.files path ref shown
      ∧ (Web.serve request workspace).1 = view ref shown := by
  by_cases hget : (request.method == "GET".toList) = true
  · rw [if_pos hget] at hanswer
    rw [serve_of_viewNote hanswer] at h ⊢
    cases hseen : (workspace.viewed path).1 with
    | error answer =>
        rw [hseen] at h
        exact absurd h (turnsDown_viewed workspace path answer hseen).status_ne
    | ok found =>
        obtain ⟨vault, huses, hshows⟩ := shows_of_viewed hseen
        exact ⟨vault, found.1, found.2, huses, hshows, rfl⟩
  · rw [if_neg hget] at hanswer
    rw [Web.serve, hanswer] at h
    exact absurd h (by decide : 405 ≠ 200)

/-! ## The command -/

/-- What is printed shows the note that the path is taken for. -/
theorem shows_of_noteOutcome {fs : Files} {layout : Layout} {outcome : Console.Outcome}
    (h : Console.noteOutcome vault fs path layout = .ok outcome) (hdone : outcome.exit = .done) :
    ∃ ref shown, vault.Shows fs path ref shown ∧ outcome = .printLine shown := by
  cases hopened : vault.openNote fs path with
  | error fault =>
      rw [Console.noteOutcome_of_unopened hopened] at h
      split at h
      · cases h
        cases hdone
      · cases h
  | ok opened =>
      obtain ⟨ref, text⟩ := opened
      obtain ⟨href, htext⟩ := Vault.openNote_eq_ok hopened
      rw [Console.noteOutcome_of_opened hopened] at h
      cases hshown : (vault.expand fs text layout).1 with
      | error fault =>
          rw [hshown] at h
          cases h
      | ok shown =>
          rw [hshown] at h
          cases h
          exact ⟨ref, shown, ⟨text, layout, href, htext, hshown⟩, rfl⟩

/-- **WHAT THE COMMAND COMES TO**, once the stored settings are loaded, is told by the shared
    vault at the root that it is given. -/
theorem summarize_of_uses {arguments : List Text} {settings : Settings}
    {given : List (Console.SummarizeOption × Text)}
    (hread : Console.summarizeCommand.read arguments = .values given)
    (hload : Settings.load workspace.files workspace.settingsPath = .ok settings)
    (huses : workspace.Uses (Console.lastValue? given .vault) vault) :
    (Console.summarize arguments workspace).1
      = Console.outcomeOf vault workspace.files given (Console.layoutOf settings given) := by
  obtain ⟨place, hplace, rfl⟩ := huses
  rw [Console.summarize, hread]
  simp only [Console.summarizeWith_result, hload]
  show (workspace.placeOfRoot _).bind _ = _
  rw [hplace]
  rfl

/-- **A COMMAND FOR A NOTE** that is done has shown the note that its path is taken for. -/
theorem summarize_note {arguments : List Text} {given : List (Console.SummarizeOption × Text)}
    {outcome : Console.Outcome}
    (hread : Console.summarizeCommand.read arguments = .values given)
    (hpath : Console.lastValue? given .note = some path) (hne : path ≠ [])
    (h : Console.summarize arguments workspace = (.ok outcome, after))
    (hdone : outcome.exit = .done) :
    ∃ vault ref shown, workspace.Uses (Console.lastValue? given .vault) vault
      ∧ vault.Shows workspace.files path ref shown ∧ outcome = .printLine shown := by
  obtain ⟨c, rest, rfl⟩ := List.exists_cons_of_ne_nil hne
  have hresult : (Console.summarizeWith given workspace).1 = .ok outcome := by
    rw [Console.summarize, hread] at h
    exact congrArg Prod.fst h
  rw [Console.summarizeWith_result] at hresult
  obtain ⟨settings, -, hresult⟩ := Vault.exists_of_bind_ok hresult
  obtain ⟨place, hplace, hresult⟩ := Vault.exists_of_bind_ok hresult
  rw [Console.outcomeOf, hpath] at hresult
  obtain ⟨ref, shown, hshows, rfl⟩ := shows_of_noteOutcome hresult hdone
  exact ⟨_, ref, shown, ⟨place, hplace, rfl⟩, hshows, rfl⟩

/-! ## Lookup and listing -/

theorem Uses.isWritten (hwritten : workspace.AllWritten) (h : workspace.Uses root vault) :
    vault.IsWritten := by
  obtain ⟨place, -, rfl⟩ := h
  rcases sharedVault_cases workspace root place with hused | hnew
  · exact hwritten place _ hused
  · rw [hnew]
    exact ⟨_, rfl⟩

/-- **LOOKUP AND LISTING**:

    * the two requests for a note, and the command for one, show the note that a path is taken
      for in the shared vault at a root, and nothing else;
    * in every vault that has a list of notes, what a path is taken for is listed exactly when
      a way down from the root reaches it; unless links turn in a circle, that is when it has
      the name of a note, or a link with such a name leads to it;
    * the path of each listed note is taken for that note, unless the path to its file from
      the top is too long for the system. -/
theorem lookup_agrees_with_listing (hfs : workspace.files.WellFormed)
    (hwritten : workspace.AllWritten) :
    (∀ (request : Web.Request) path, Web.Resource.ofPath? request.path = some (.note path) →
        (Web.serve request workspace).1.status = 200 →
          ∃ vault ref shown, workspace.Uses none vault ∧ vault.Shows workspace.files path ref shown
            ∧ (Web.serve request workspace).1 = .ok (ref.json (some shown)))
      ∧ (∀ (request : Web.Request) path, Web.Resource.ofPath? request.path = some (.page path) →
          (Web.serve request workspace).1.status = 200 →
            ∃ vault ref shown, workspace.Uses none vault
              ∧ vault.Shows workspace.files path ref shown
              ∧ (Web.serve request workspace).1 = .page (Web.notePage ref (.ofText shown)))
      ∧ (∀ arguments given path outcome after,
          Console.summarizeCommand.read arguments = .values given →
          Console.lastValue? given .note = some path → path ≠ [] →
          Console.summarize arguments workspace = (.ok outcome, after) → outcome.exit = .done →
            ∃ vault ref shown, workspace.Uses (Console.lastValue? given .vault) vault
              ∧ vault.Shows workspace.files path ref shown ∧ outcome = .printLine shown)
      ∧ (∀ root (vault : Vault), workspace.Uses root vault → vault.IsWritten)
      ∧ ∀ (vault : Vault) top refs, vault.IsWritten →
          workspace.files.locate .follow vault.root = .ok ⟨top, some .directory⟩ →
          vault.notes workspace.files = .ok refs →
            (∀ path ref, vault.noteRef workspace.files path = .ok ref →
              (ref ∈ refs ↔ ∃ names place, vault.Reaches workspace.files names place
                ∧ vault.resolve workspace.files path = .ok place)
              ∧ (vault.IsClear workspace.files path →
                (ref ∈ refs ↔ Vault.IsNamed ref ∨ vault.IsLinked workspace.files ref)))
            ∧ ∀ ref ∈ refs, ∃ place, vault.Holds workspace.files ref place
              ∧ vault.noteRef workspace.files ref.path
                = if workspace.files.isOverlong (toPlace place)
                  then .error (.file .nameTooLong) else .ok ref := by
  refine ⟨?_, ?_, ?_, fun root vault => Uses.isWritten hwritten, ?_⟩
  · intro request path hpath hstatus
    refine serve_view ?_ hstatus
    rw [Web.answer, hpath]
    rfl
  · intro request path hpath hstatus
    refine serve_view ?_ hstatus
    rw [Web.answer, hpath]
    rfl
  · intro arguments given path outcome after hread hpath hne hrun hdone
    exact summarize_note hread hpath hne hrun hdone
  · intro vault top refs hvault hfound hnotes
    constructor
    · intro path ref href
      exact ⟨Vault.mem_notes_iff_reaches hfs hfound hvault hnotes href,
        Vault.mem_notes_iff_named_or_linked hfs hfound hvault hnotes href⟩
    · intro ref href
      exact Vault.noteRef_of_mem_notes hfs hnotes href

/-- The server shows a note of the vault, and what a path through a missing folder is taken for
    is listed exactly if it has the name of a note or a link with such a name leads to it. -/
theorem pair_lookup :
    pair.files.WellFormed ∧ pair.AllWritten
      ∧ (∃ vault ref shown, pair.Uses none vault ∧ vault.Shows pair.files "c.md".toList ref shown
        ∧ (Web.serve ⟨"GET".toList, "/api/notes/c.md".toList, []⟩ pair).1
          = .ok (ref.json (some shown)))
      ∧ (Vault.ofText "vault".toList).noteRef pair.files "x/../d.md".toList
        = .ok ⟨"d.md".toList, ['d']⟩
      ∧ ((⟨"d.md".toList, ['d']⟩ : NoteRef)
          ∈ [(⟨"c.md".toList, ['c']⟩ : NoteRef), ⟨"d.md".toList, ['d']⟩]
        ↔ Vault.IsNamed ⟨"d.md".toList, ['d']⟩
          ∨ (Vault.ofText "vault".toList).IsLinked pair.files ⟨"d.md".toList, ['d']⟩) := by
  have hwritten : pair.AllWritten := @allWritten_after pair rfl []
  obtain ⟨hserved, -, -, -, hlisted⟩ := lookup_agrees_with_listing wellFormed_pair hwritten
  have hnotes : (Vault.ofText "vault".toList).notes pair.files
      = .ok [⟨"c.md".toList, ['c']⟩, ⟨"d.md".toList, ['d']⟩] :=
    Vault.notes_of_ascending rfl (by decide +kernel) (by decide +kernel)
      (show List.Pairwise _ _ from by decide)
  have hnote : (Vault.ofText "vault".toList).noteRef pair.files "x/../d.md".toList
      = .ok ⟨"d.md".toList, ['d']⟩ := by decide +kernel
  have hclear : (Vault.ofText "vault".toList).IsClear pair.files "x/../d.md".toList := by
    intro top htop
    obtain rfl : ["vault".toList] = top := Except.ok.inj htop
    show (pair.files.resolution _).clear = true
    decide +kernel
  refine ⟨wellFormed_pair, hwritten, ?_, hnote, ?_⟩
  · exact hserved ⟨"GET".toList, "/api/notes/c.md".toList, []⟩ "c.md".toList
      (by decide +kernel) (by decide +kernel)
  · exact ((hlisted _ _ _ ⟨_, rfl⟩ rfl hnotes).1 _ _ hnote).2 hclear

/-- A vault with one file, which has not the name of a note. -/
def cellar : Workspace where
  files := ⟨[(["vault".toList], .directory),
    (["vault".toList, "secret.txt".toList], .file (Text.toUtf8 "secret".toList) (.clock 1))], []⟩
  vaultPath := "vault".toList
  settingsPath := "settings.json".toList

/-- **ANY FILE** below the root is found and handed out, though no note is listed. -/
theorem unlisted_served :
    cellar.files.WellFormed
      ∧ (Vault.ofText "vault".toList).notes cellar.files = .ok []
      ∧ (Vault.ofText "vault".toList).noteRef cellar.files "secret.txt".toList
        = .ok ⟨"secret.txt".toList, "secret.txt".toList⟩
      ∧ (Web.serve ⟨"GET".toList, "/api/notes/secret.txt".toList, []⟩ cellar).1.status = 200
      ∧ (Console.summarize ["--note".toList, "secret.txt".toList] cellar).1
        = .ok (.printLine "secret".toList) := by
  refine ⟨⟨by decide, by decide, plain_nil _, rfl⟩, ?_, ?_, ?_, ?_⟩
  · exact Vault.notes_of_ascending rfl (by decide +kernel) (by decide +kernel) List.Pairwise.nil
  · decide +kernel
  · decide +kernel
  · decide +kernel

end Workspace
end NoteDigest
