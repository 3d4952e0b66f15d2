import NoteDigest.Proofs.Settings.Loading
import NoteDigest.Proofs.Vault.Opening
import NoteDigest.Proofs.Workspace.Serving

/-! # Statuses — what a request for a note is answered with

    In a vault without front matter, with nothing stored in the settings, a request for a note
    is refused (400), finds nothing (404), finds what cannot be read (422) or is fulfilled
    (200); and which of them it is can be told from the tree (`note_request_status`).

    It is a fault of the server (500) in three cases.  A link that turns in a circle is not
    looked for, so a path behind it resolves to nothing at all; no more does one on which too
    many links are open at once.  And a note with a directive needs the list of all notes,
    which a single link to a name that is too long prevents (`unanswered_requests`), or a
    folder that stands too deep in others. -/

namespace NoteDigest

open NoteDigest.Path Files Web

/-! ## Outcomes -/

namespace Vault

variable {vault : Vault} {fs : Files} {path : Text}

/-- No note of the vault has front matter. -/
def HasNoFrontMatter (vault : Vault) (fs : Files) : Prop :=
  ∀ refs, vault.notes fs = .ok refs → ∀ ref ∈ refs, ∀ lines, vault.lines fs ref = .ok lines →
    Note.frontMatterLines? lines = none

theorem HasNoFrontMatter.notesConvert (h : vault.HasNoFrontMatter fs) : vault.NotesConvert fs := by
  intro refs hnotes ref href lines hlines inner hinner
  cases (h refs hnotes ref href lines hlines).symm.trans hinner

/-- The path may not be asked for: it holds a NUL, or leads out of the vault. -/
def Refuses (vault : Vault) (fs : Files) (path : Text) : Prop :=
  Text.hasNul path = true ∨ vault.LeadsOut fs path

/-- The path stands for a place in the vault where no file is. -/
def Lacks (vault : Vault) (fs : Files) (path : Text) : Prop :=
  ∃ place, vault.resolve fs path = .ok place ∧ fs.isOverlong (toPlace place) = false
    ∧ fs.isFile (toPlace place) = false

/-- The path stands for a place in the vault that is too far down for the system to look, or
    for a file whose bytes are no text. -/
def Garbles (vault : Vault) (fs : Files) (path : Text) : Prop :=
  ∃ place, vault.resolve fs path = .ok place
    ∧ (fs.isOverlong (toPlace place) = true
      ∨ ∃ bytes, fs.read (toPlace place) = .ok bytes ∧ Text.ofUtf8? bytes = none)

/-- The path stands for a file in the vault with a text. -/
def Keeps (vault : Vault) (fs : Files) (path text : Text) : Prop :=
  ∃ place bytes, vault.resolve fs path = .ok place ∧ fs.read (toPlace place) = .ok bytes
    ∧ (Text.ofUtf8? bytes).map Text.unixNewlines = some text

/-- **ONE OF FOUR** things is the case with a clear path, if there is room for its links. -/
theorem outcome_of_clear {top : Place} (hfs : fs.WellFormed) (hwritten : vault.IsWritten)
    (hroot : vault.rootPlace fs = .ok top) (hclear : vault.IsClear fs path)
    (hroom : ¬ vault.Overloads fs path) :
    vault.Refuses fs path ∨ vault.Lacks fs path ∨ vault.Garbles fs path
      ∨ ∃ text, vault.Keeps fs path text := by
  rcases resolve_cases_of_clear hfs hwritten hroot hclear hroom with hnul | hout | ⟨place, hplace⟩
  · exact .inl (.inl hnul)
  · exact .inl (.inr hout)
  · cases hlong : fs.isOverlong (toPlace place) with
    | true => exact .inr (.inr (.inl ⟨place, hplace, .inl hlong⟩))
    | false =>
        cases hfile : fs.isFile (toPlace place) with
        | false => exact .inr (.inl ⟨place, hplace, hlong, hfile⟩)
        | true =>
            obtain ⟨goal, bytes, stamp, hfound⟩ := isFile_iff.mp hfile
            have hread : fs.read (toPlace place) = .ok bytes := by
              rw [Files.read, stat, hfound]
            cases htext : Text.ofUtf8? bytes with
            | none => exact .inr (.inr (.inl ⟨place, hplace, .inr ⟨bytes, hread, htext⟩⟩))
            | some text =>
                refine .inr (.inr (.inr ⟨Text.unixNewlines text, place, bytes, hplace, hread, ?_⟩))
                rw [htext]
                rfl

section Opened

variable {top : Place} {text : Text} (hfs : fs.WellFormed) (hwritten : vault.IsWritten)

theorem openNote_of_refuses (hroot : vault.rootPlace fs = .ok top)
    (hclear : vault.IsClear fs path) (hroom : ¬ vault.Overloads fs path)
    (h : vault.Refuses fs path) :
    ∃ fault, vault.openNote fs path = .error fault ∧ fault.isRefusal = true := by
  rcases h with hnul | hout
  · exact ⟨_, openNote_of_resolve_error (resolve_of_hasNul hroot hclear hroom hnul), rfl⟩
  · exact ⟨_, openNote_of_resolve_error (resolve_of_leadsOut hout), rfl⟩

variable (hclear : vault.IsClear fs path)

include hfs hwritten hclear

theorem openNote_of_lacks (h : vault.Lacks fs path) :
    vault.openNote fs path = .error (.noNote path) := by
  obtain ⟨place, hplace, hshort, hnone⟩ := h
  exact openNote_of_no_file hfs hwritten hclear hplace hshort hnone

theorem openNote_of_garbles (h : vault.Garbles fs path) :
    ∃ fault, vault.openNote fs path = .error fault ∧ fault.isRefusal = false
      ∧ fault.isAbsence = false ∧ fault.isReading = true := by
  obtain ⟨place, hplace, hlong | ⟨bytes, hread, hbytes⟩⟩ := h
  · exact ⟨_, openNote_of_overlong hfs hwritten hclear hplace hlong, rfl, rfl, rfl⟩
  · obtain ⟨ref, hopened⟩ := openNote_of_read hfs hwritten hclear hplace hread
    rw [hbytes] at hopened
    exact ⟨_, hopened, rfl, rfl, rfl⟩

theorem openNote_of_keeps (h : vault.Keeps fs path text) :
    ∃ ref, vault.openNote fs path = .ok (ref, text) := by
  obtain ⟨place, bytes, hplace, hread, htext⟩ := h
  obtain ⟨written, hbytes, rfl⟩ := Option.map_eq_some_iff.mp htext
  obtain ⟨ref, hopened⟩ := openNote_of_read hfs hwritten hclear hplace hread
  rw [hbytes] at hopened
  exact ⟨ref, hopened⟩

end Opened

end Vault

/-! ## Statuses -/

namespace Workspace

variable {workspace : Workspace} {vault : Vault} {top : Place} {path : Text}

/-- **PLAIN**: requests go to a vault at a root given as text, in a tree within reach.  There
    is no settings file, and no note has front matter. -/
structure IsPlain (workspace : Workspace) (vault : Vault) (top : Place) : Prop where
  files : workspace.files.WithinReach
  uses : workspace.Uses none vault
  written : vault.IsWritten
  root : vault.rootPlace workspace.files = .ok top
  unset : workspace.files.isFile (Path.ofText workspace.settingsPath) = false
  plain : vault.HasNoFrontMatter workspace.files

/-- Where no settings file is, the defaults are loaded. -/
theorem load_of_unset
    (hunset : workspace.files.isFile (Path.ofText workspace.settingsPath) = false) :
    Settings.load workspace.files workspace.settingsPath = .ok {} := by
  cases hread : workspace.files.read (Path.ofText workspace.settingsPath) with
  | error cause => exact Settings.load_of_unreadable hread
  | ok bytes =>
      obtain ⟨place, stamp, hfound⟩ := Vault.locate_of_read hread
      rw [isFile_iff.mpr ⟨place, bytes, stamp, hfound⟩] at hunset
      cases hunset

/-- A fault of a path, or of the file behind it, is no fault of the server. -/
theorem status_of_openingFault {fault : Fault} (file : Text)
    (h : fault.isRefusal = true ∨ fault.isReading = true) :
    ((Answer.ofNoteFault? file fault).getD .serverFault).status ≠ 500 := by
  rw [Answer.ofNoteFault?]
  split
  · exact (by decide : 400 ≠ 500)
  · rename_i hrefusal
    split
    · exact (by decide : 404 ≠ 500)
    · rw [if_pos (h.resolve_left hrefusal)]
      exact (by decide : 422 ≠ 500)

/-- The status of the answer to a request for a note. -/
def noteStatus (workspace : Workspace) (path body : Text) : Nat :=
  (serve (jsonRequest path body) workspace).1.status

section Status

variable (h : workspace.IsPlain vault top) (hpath : '\n' ∉ path) (body : Text)

include h hpath

theorem noteStatus_eq_viewed :
    workspace.noteStatus path body
      = (answerOf (fun note markdown => .ok (note.json (some markdown)))
          (vault.viewed workspace.files workspace.settingsPath path).1).status := by
  obtain ⟨place, hplace, rfl⟩ := h.uses
  rw [noteStatus, serve_of_viewNote (answer_jsonRequest hpath body), viewed_of_placeOfRoot hplace]

theorem noteStatus_of_error {fault : Fault}
    (hopened : vault.openNote workspace.files path = .error fault) :
    workspace.noteStatus path body
      = ((Answer.ofNoteFault? (vault.fileText workspace.files path) fault).getD
          .serverFault).status := by
  rw [noteStatus_eq_viewed h hpath body, Vault.viewed_of_openNote_error hopened]
  rfl

/-- A note that is opened is shown, or its directives fail. -/
theorem noteStatus_of_ok {ref : NoteRef} {text : Text}
    (hopened : vault.openNote workspace.files path = .ok (ref, text)) :
    workspace.noteStatus path body = 200
        ∧ (Vault.Asks text → ¬ vault.Unlisted workspace.files)
      ∨ workspace.noteStatus path body = 500 ∧ Vault.Asks text
        ∧ vault.Unlisted workspace.files := by
  have hiff := Vault.expand_isOk_iff h.files.toWellFormed h.plain.notesConvert text
    ({} : Settings).layout
  rw [noteStatus_eq_viewed h hpath body, Vault.viewed_of_openNote_ok hopened, Vault.shown,
    load_of_unset h.unset]
  cases hshown : (vault.expand workspace.files text ({} : Settings).layout).1 with
  | ok shown => exact .inl ⟨rfl, hiff.mp ⟨shown, hshown⟩⟩
  | error fault => exact .inr ⟨rfl, (Vault.isError_iff_unlisted hiff).mp ⟨fault, hshown⟩⟩

/-- **A CIRCLE** at the end of a path is no fault of a note, as the server sees it. -/
theorem noteStatus_of_circle
    (hcircle : vault.resolve workspace.files path = .error .circularLink) :
    workspace.noteStatus path body = 500 :=
  noteStatus_of_error h hpath body (Vault.openNote_of_resolve_error hcircle)

/-- **TOO MANY LINKS** are no fault of a note either. -/
theorem noteStatus_of_overloads (hdeep : vault.Overloads workspace.files path) :
    workspace.noteStatus path body = 500 :=
  noteStatus_of_error h hpath body
    (Vault.openNote_of_resolve_error (Vault.resolve_of_overloads hdeep))

/-- **A FAULT OF THE SERVER** comes of links, or of directives in a note when the notes cannot
    be listed. -/
theorem noteStatus_eq_fault_iff :
    workspace.noteStatus path body = 500
      ↔ vault.openNote workspace.files path = .error .circularLink
        ∨ vault.openNote workspace.files path = .error .tooDeep
        ∨ ∃ ref text, vault.openNote workspace.files path = .ok (ref, text) ∧ Vault.Asks text
          ∧ vault.Unlisted workspace.files := by
  cases hopened : vault.openNote workspace.files path with
  | error fault =>
      rw [noteStatus_of_error h hpath body hopened]
      constructor
      · intro hstatus
        rcases Vault.FailsToOpen.openNote vault workspace.files path fault hopened with
          hrefusal | hreading | rfl | rfl
        · exact absurd hstatus (status_of_openingFault _ (.inl hrefusal))
        · exact absurd hstatus (status_of_openingFault _ (.inr hreading))
        · exact .inl rfl
        · exact .inr (.inl rfl)
      · rintro (hcircle | hdeep | ⟨ref, text, hok, -⟩)
        · cases hcircle
          rfl
        · cases hdeep
          rfl
        · cases hok
  | ok opened =>
      obtain ⟨ref, text⟩ := opened
      rcases noteStatus_of_ok h hpath body hopened with ⟨hstatus, hlisted⟩ | ⟨hstatus, hfails⟩
      · rw [hstatus]
        refine iff_of_false (by decide) ?_
        rintro (hcircle | hdeep | ⟨_, _, hsame, hasks, hnotes⟩)
        · cases hcircle
        · cases hdeep
        · cases hsame
          exact hlisted hasks hnotes
      · exact iff_of_true hstatus (.inr (.inr ⟨ref, text, rfl, hfails⟩))

variable (hclear : vault.IsClear workspace.files path)

include hclear

theorem noteStatus_of_refuses (hroom : ¬ vault.Overloads workspace.files path)
    (hrefuses : vault.Refuses workspace.files path) : workspace.noteStatus path body = 400 := by
  obtain ⟨fault, hopened, hrefusal⟩ := Vault.openNote_of_refuses h.root hclear hroom hrefuses
  rw [noteStatus_of_error h hpath body hopened, Answer.ofNoteFault?, if_pos hrefusal]
  rfl

theorem noteStatus_of_lacks (hlacks : vault.Lacks workspace.files path) :
    workspace.noteStatus path body = 404 :=
  noteStatus_of_error h hpath body
    (Vault.openNote_of_lacks h.files.toWellFormed h.written hclear hlacks)

theorem noteStatus_of_garbles (hgarbles : vault.Garbles workspace.files path) :
    workspace.noteStatus path body = 422 := by
  obtain ⟨fault, hopened, hrefusal, habsence, hreading⟩ :=
    Vault.openNote_of_garbles h.files.toWellFormed h.written hclear hgarbles
  rw [noteStatus_of_error h hpath body hopened, Answer.ofNoteFault?, hrefusal, habsence, hreading]
  rfl

theorem noteStatus_of_keeps {text : Text} (hkeeps : vault.Keeps workspace.files path text) :
    workspace.noteStatus path body = 200
        ∧ (Vault.Asks text → ¬ vault.Unlisted workspace.files)
      ∨ workspace.noteStatus path body = 500 ∧ Vault.Asks text
        ∧ vault.Unlisted workspace.files := by
  obtain ⟨ref, hopened⟩ := Vault.openNote_of_keeps h.files.toWellFormed h.written hclear hkeeps
  exact noteStatus_of_ok h hpath body hopened

end Status

/-- **REQUESTS FOR A NOTE** in a plain vault, by any path of one line:

    * the status is one of five;
    * it is a fault of the server exactly if the note cannot be opened because links turn in a
      circle or there is no room for them, or if a directive in it asks for notes and these
      cannot be listed; and it is one for a path that ends in a circle, or has more links open
      at once than there is room for;
    * the notes cannot be listed exactly if folders stand too deep in one another, or the path
      of the root, of a folder or of what has the name of a note is too long;
    * a path on which no link turns in a circle, and with room for its links, is refused
      exactly if it holds a NUL or leads out of the vault; it finds nothing exactly if there is
      no file; it cannot be read exactly if it is too far down or the bytes of the file are no
      text; and what it is taken for is shown otherwise, the directives that fail excepted. -/
theorem note_request_status (h : workspace.IsPlain vault top) (hpath : '\n' ∉ path)
    (body : Text) :
    workspace.noteStatus path body ∈ [200, 400, 404, 422, 500]
      ∧ (workspace.noteStatus path body = 500
          ↔ vault.openNote workspace.files path = .error .circularLink
            ∨ vault.openNote workspace.files path = .error .tooDeep
            ∨ ∃ ref text, vault.openNote workspace.files path = .ok (ref, text) ∧ Vault.Asks text
              ∧ vault.Unlisted workspace.files)
      ∧ (vault.resolve workspace.files path = .error .circularLink →
          workspace.noteStatus path body = 500)
      ∧ (vault.Overloads workspace.files path → workspace.noteStatus path body = 500)
      ∧ (vault.Unlisted workspace.files ↔ vault.isOutOfReach workspace.files = true
          ∨ ∃ top, workspace.files.locate .follow vault.root = .ok ⟨top, some .directory⟩
            ∧ (Vault.nestsTooDeep workspace.files top = true
              ∨ vault.anyOverlong workspace.files top = true))
      ∧ (vault.IsClear workspace.files path → ¬ vault.Overloads workspace.files path →
          (workspace.noteStatus path body = 400 ↔ vault.Refuses workspace.files path)
          ∧ (workspace.noteStatus path body = 404 ↔ vault.Lacks workspace.files path)
          ∧ (workspace.noteStatus path body = 422 ↔ vault.Garbles workspace.files path)
          ∧ (workspace.noteStatus path body = 200
              ↔ ∃ text, vault.Keeps workspace.files path text
                ∧ (Vault.Asks text → ¬ vault.Unlisted workspace.files))
          ∧ (workspace.noteStatus path body = 500
              ↔ ∃ text, vault.Keeps workspace.files path text ∧ Vault.Asks text
                ∧ vault.Unlisted workspace.files)) := by
  refine ⟨(note_views_agree workspace hpath body body).1.known,
    noteStatus_eq_fault_iff h hpath body, noteStatus_of_circle h hpath body,
    noteStatus_of_overloads h hpath body, Vault.unlisted_iff, fun hclear hroom => ?_⟩
  have hrefuses := noteStatus_of_refuses h hpath body hclear hroom
  have hlacks := noteStatus_of_lacks h hpath body hclear
  have hgarbles := noteStatus_of_garbles h hpath body hclear
  have hkeeps : ∀ text, vault.Keeps workspace.files path text → _ :=
    fun text => noteStatus_of_keeps h hpath body hclear
  have houtcome := Vault.outcome_of_clear h.files.toWellFormed h.written h.root hclear hroom
  -- the outcomes exclude one another by their statuses
  refine ⟨?_, ?_, ?_, ?_, ?_⟩ <;> grind

theorem isPlain_pair : pair.IsPlain (.ofText "vault".toList) ["vault".toList] where
  files := ⟨wellFormed_pair, by decide⟩
  uses := ⟨["vault".toList], by decide +kernel, rfl⟩
  written := ⟨_, rfl⟩
  root := by decide +kernel
  unset := by decide +kernel
  plain := by
    have hnotes : (Vault.ofText "vault".toList).notes pair.files
        = .ok [⟨"c.md".toList, ['c']⟩, ⟨"d.md".toList, ['d']⟩] :=
      Vault.notes_of_ascending rfl (by decide +kernel) (by decide +kernel)
        (show List.Pairwise _ _ from by decide)
    intro refs hrefs
    obtain rfl := Except.ok.inj (hnotes.symm.trans hrefs)
    have hlines : ∀ ref ∈ [(⟨"c.md".toList, ['c']⟩ : NoteRef), ⟨"d.md".toList, ['d']⟩],
        ∀ lines ∈ ((Vault.ofText "vault".toList).lines pair.files ref).toOption,
          Note.frontMatterLines? lines = none := by decide +kernel
    intro ref href lines hok
    exact hlines ref href lines (by rw [hok]; rfl)

theorem isClear_pair {path : Text} (h : path ∈ ["x/../d.md".toList, "x/d.md".toList]) :
    (Vault.ofText "vault".toList).IsClear pair.files path := by
  intro top htop
  obtain rfl : ["vault".toList] = top := Except.ok.inj htop
  show (pair.files.resolution _).clear = true
  revert path
  decide +kernel

theorem not_overloads_pair {path : Text} (h : path ∈ ["x/../d.md".toList, "x/d.md".toList]) :
    ¬ (Vault.ofText "vault".toList).Overloads pair.files path := by
  rintro ⟨top, htop, hdeep⟩
  obtain rfl : ["vault".toList] = top := Except.ok.inj htop
  revert path
  decide +kernel

/-- A path through a missing folder is taken for a note, which is shown; there is none in the
    folder itself. -/
theorem pair_status :
    pair.IsPlain (.ofText "vault".toList) ["vault".toList] ∧ '\n' ∉ "x/../d.md".toList
      ∧ (Vault.ofText "vault".toList).IsClear pair.files "x/../d.md".toList
      ∧ pair.noteStatus "x/../d.md".toList [] = 200
      ∧ pair.noteStatus "x/d.md".toList [] = 404 := by
  have hline : ∀ path ∈ ["x/../d.md".toList, "x/d.md".toList], '\n' ∉ path := by decide
  have hkept : (Vault.ofText "vault".toList).IsClear pair.files "x/../d.md".toList :=
    isClear_pair (by decide)
  have hlost : (Vault.ofText "vault".toList).IsClear pair.files "x/d.md".toList :=
    isClear_pair (by decide)
  have hroom := @not_overloads_pair
  refine ⟨isPlain_pair, hline _ (by decide), hkept, ?_, ?_⟩
  · obtain ⟨-, -, -, -, -, hstatus⟩ :=
      note_request_status isPlain_pair (hline "x/../d.md".toList (by decide)) []
    refine (hstatus hkept (hroom (by decide))).2.2.2.1.mpr ⟨"#two y\n".toList, ?_, ?_⟩
    · exact ⟨["vault".toList, "d.md".toList], Text.toUtf8 "#two y\n".toList, by decide +kernel, rfl,
        by decide +kernel⟩
    · rintro ⟨block, hblock, -⟩
      cases hblock
  · obtain ⟨-, -, -, -, -, hstatus⟩ :=
      note_request_status isPlain_pair (hline "x/d.md".toList (by decide)) []
    refine (hstatus hlost (hroom (by decide))).2.1.mpr ?_
    exact ⟨["vault".toList, "x".toList, "d.md".toList], by decide +kernel, by decide +kernel,
      by decide +kernel⟩

/-! ## Faults of the server -/

/-- A vault in which a link leads to itself. -/
def ring : Workspace where
  files := ⟨[(["vault".toList], .directory),
    (["vault".toList, "a.md".toList], .link "a.md".toList)], []⟩
  vaultPath := "vault".toList
  settingsPath := "settings.json".toList

/-- A vault with a note that asks for others, and a link to a name that no file can have. -/
def dangling : Workspace where
  files := ⟨[(["vault".toList], .directory),
    (["vault".toList, "n.md".toList],
      .file (Text.toUtf8 "\x60\x60\x60add-summary\ntags: #t\n\x60\x60\x60\n".toList) (.clock 1)),
    (["vault".toList, "x.md".toList], .link (List.replicate 300 'a'))], []⟩
  vaultPath := "vault".toList
  settingsPath := "settings.json".toList

theorem isPlain_ring : ring.IsPlain (.ofText "vault".toList) ["vault".toList] where
  files := ⟨⟨by decide, by decide, plain_nil _, rfl⟩, by decide⟩
  uses := ⟨["vault".toList], by decide +kernel, rfl⟩
  written := ⟨_, rfl⟩
  root := by decide +kernel
  unset := by decide +kernel
  plain := by
    have hnotes : (Vault.ofText "vault".toList).notes ring.files = .ok [] :=
      Vault.notes_of_ascending rfl (by decide +kernel) (by decide +kernel) List.Pairwise.nil
    intro refs hrefs ref href
    obtain rfl := Except.ok.inj (hnotes.symm.trans hrefs)
    cases href

theorem isPlain_dangling : dangling.IsPlain (.ofText "vault".toList) ["vault".toList] where
  files := ⟨⟨by decide, by decide, plain_nil _, rfl⟩, by decide⟩
  uses := ⟨["vault".toList], by decide +kernel, rfl⟩
  written := ⟨_, rfl⟩
  root := by decide +kernel
  unset := by decide +kernel
  plain := by
    have hfound : dangling.files.locate .follow (Vault.ofText "vault".toList).root
        = .ok ⟨["vault".toList], some .directory⟩ := rfl
    have hlong : (Vault.ofText "vault".toList).anyOverlong dangling.files ["vault".toList]
        = true := by decide +kernel
    -- the notes cannot be listed
    intro refs hrefs
    obtain ⟨-, hshort, -⟩ := (Vault.notes_eq_ok_iff hfound).mp hrefs
    cases hlong.symm.trans hshort

/-- **UNANSWERED**: in plain vaults, a request for a link that leads to itself, and one for a
    note that asks for others while a link next to it leads to a name that is too long, are
    answered with a fault of the server. -/
theorem unanswered_requests :
    ring.IsPlain (.ofText "vault".toList) ["vault".toList] ∧ '\n' ∉ "a.md".toList
      ∧ ring.noteStatus "a.md".toList [] = 500
      ∧ dangling.IsPlain (.ofText "vault".toList) ["vault".toList] ∧ '\n' ∉ "n.md".toList
      ∧ dangling.noteStatus "n.md".toList [] = 500 :=
  ⟨isPlain_ring, by decide, by decide +kernel, isPlain_dangling, by decide, by decide +kernel⟩

end Workspace
end NoteDigest
