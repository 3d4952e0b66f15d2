import NoteDigest.Proofs.Vault.Memory
import NoteDigest.Proofs.Web.Pages
import NoteDigest.Proofs.Workspace.Session
import NoteDigest.Web.Server

/-! # Viewing — two views of one note

    A note is handed out as JSON and as a page.  Both requests do the same before the view is
    made: the note is opened in the shared vault, and its directives are replaced
    (`Workspace.viewed`, `serve_of_viewNote`).  Meanwhile the vault remembers what it has
    read, and that never shows when the note is asked for again (`viewed_again`).  So the two
    views agree, in whatever order they are asked for (`note_views_agree`). -/

namespace NoteDigest

open NoteDigest.Path Files

/-! ## Seeing a note -/

namespace Vault

variable {vault vault' : Vault} {fs : Files}

/-- The text of a note with its directives replaced, in the layout that is stored. -/
def shown (vault : Vault) (fs : Files) (settingsPath text : Text) : Except Fault Text × Vault :=
  match Settings.load fs settingsPath with
  | .error fault => (.error fault, vault)
  | .ok settings => vault.expand fs text settings.layout

/-- The note that a path leads to and what is shown of it, or the answer that tells why there
    is nothing to see; and the vault afterwards. -/
def viewed (vault : Vault) (fs : Files) (settingsPath path : Text) :
    Except Web.Answer (NoteRef × Text) × Vault :=
  match vault.openNote fs path with
  | .error fault =>
      (.error ((Web.Answer.ofNoteFault? (vault.fileText fs path) fault).getD .serverFault), vault)
  | .ok (ref, text) =>
      let (result, after) := vault.shown fs settingsPath text
      ((result.map (ref, ·)).mapError fun _ => .serverFault, after)

theorem viewed_of_openNote_error {settingsPath path : Text} {fault : Fault}
    (h : vault.openNote fs path = .error fault) :
    vault.viewed fs settingsPath path
      = (.error ((Web.Answer.ofNoteFault? (vault.fileText fs path) fault).getD .serverFault),
         vault) := by
  rw [viewed, h]

theorem viewed_of_openNote_ok {settingsPath path : Text} {ref : NoteRef} {text : Text}
    (h : vault.openNote fs path = .ok (ref, text)) :
    vault.viewed fs settingsPath path
      = (((vault.shown fs settingsPath text).1.map (ref, ·)).mapError fun _ => .serverFault,
         (vault.shown fs settingsPath text).2) := by
  rw [viewed, h]

/-- What is seen is shown of the note that is opened, in the layout that is stored. -/
theorem viewed_eq_ok {settingsPath path shown : Text} {ref : NoteRef}
    (h : (vault.viewed fs settingsPath path).1 = .ok (ref, shown)) :
    ∃ text settings, vault.openNote fs path = .ok (ref, text)
      ∧ Settings.load fs settingsPath = .ok settings
      ∧ (vault.expand fs text settings.layout).1 = .ok shown := by
  cases hopened : vault.openNote fs path with
  | error fault =>
      rw [viewed_of_openNote_error hopened] at h
      cases h
  | ok opened =>
      rw [viewed_of_openNote_ok hopened, Vault.shown] at h
      cases hload : Settings.load fs settingsPath with
      | error fault =>
          rw [hload] at h
          cases h
      | ok settings =>
          rw [hload] at h
          cases hexpanded : (vault.expand fs opened.2 settings.layout).1 with
          | error fault =>
              simp only [hexpanded] at h
              cases h
          | ok result =>
              simp only [hexpanded] at h
              cases h
              exact ⟨_, settings, rfl, rfl, hexpanded⟩

/-- A note is opened by the root of a vault alone. -/
theorem openNote_of_root_eq (hroot : vault'.root = vault.root) (fs : Files) (path : Text) :
    vault'.openNote fs path = vault.openNote fs path := by
  cases vault
  cases vault'
  cases hroot
  rfl

theorem fileText_of_root_eq (hroot : vault'.root = vault.root) (fs : Files) (path : Text) :
    vault'.fileText fs path = vault.fileText fs path := by
  cases vault
  cases vault'
  cases hroot
  rfl

/-- What a vault provides is told by its root and the metadata it gives. -/
theorem provider_of_root_eq (hroot : vault'.root = vault.root)
    (hmetadata : vault'.metadata fs = vault.metadata fs) :
    vault'.provider fs = vault.provider fs := by
  rw [provider, provider, hmetadata]
  cases vault
  cases vault'
  cases hroot
  rfl

theorem metadata_rememberAll (vault : Vault) (fs : Files) (refs : List NoteRef) :
    (vault.rememberAll fs refs).metadata fs = vault.metadata fs := by
  induction refs generalizing vault with
  | nil => rfl
  | cons ref rest ih => exact (ih _).trans (funext (metadata_remember vault fs ref))

/-- Seeing a note makes the vault remember some notes, and does nothing else to it. -/
theorem viewed_eq_rememberAll (vault : Vault) (fs : Files) (settingsPath path : Text) :
    ∃ refs, (vault.viewed fs settingsPath path).2 = vault.rememberAll fs refs := by
  cases hopened : vault.openNote fs path with
  | error fault =>
      rw [viewed_of_openNote_error hopened]
      exact ⟨[], rfl⟩
  | ok opened =>
      rw [viewed_of_openNote_ok hopened, shown]
      cases Settings.load fs settingsPath with
      | error fault => exact ⟨[], rfl⟩
      | ok settings => exact ⟨_, rfl⟩

/-- **WHAT IS REMEMBERED** makes no difference to what is seen. -/
theorem viewed_rememberAll (vault : Vault) (fs : Files) (refs : List NoteRef)
    (settingsPath path : Text) :
    ((vault.rememberAll fs refs).viewed fs settingsPath path).1
      = (vault.viewed fs settingsPath path).1 := by
  have hroot := root_rememberAll fs refs vault
  have hprovider := provider_of_root_eq hroot (metadata_rememberAll vault fs refs)
  have hsame := openNote_of_root_eq hroot fs path
  cases hopened : vault.openNote fs path with
  | error fault =>
      rw [viewed_of_openNote_error hopened, viewed_of_openNote_error (hsame.trans hopened),
        fileText_of_root_eq hroot]
  | ok opened =>
      rw [viewed_of_openNote_ok hopened, viewed_of_openNote_ok (hsame.trans hopened), shown, shown]
      cases Settings.load fs settingsPath with
      | error fault => rfl
      | ok settings => simp only [expand, afterRun, hprovider]

end Vault

/-! ## Requests for a note -/

namespace Workspace

variable {workspace : Workspace} {place : Place} {path : Text}

/-- What is seen of a note in the shared vault at the usual root. -/
def viewed (workspace : Workspace) (path : Text) :
    Except Web.Answer (NoteRef × Text) × Workspace :=
  match workspace.placeOfRoot none with
  | .error _ => (.error .serverFault, workspace)
  | .ok place =>
      let (seen, vault) := (workspace.sharedVault none place).viewed workspace.files
        workspace.settingsPath path
      (seen, workspace.putVault place vault)

theorem viewed_of_placeOfRoot (h : workspace.placeOfRoot none = .ok place) (path : Text) :
    workspace.viewed path
      = (((workspace.sharedVault none place).viewed workspace.files workspace.settingsPath path).1,
         workspace.putVault place ((workspace.sharedVault none place).viewed workspace.files
           workspace.settingsPath path).2) := by
  rw [viewed, h]

/-- **AGAIN**: what has been seen of a note once is seen again. -/
theorem viewed_again (workspace : Workspace) (path : Text) :
    ((workspace.viewed path).2.viewed path).1 = (workspace.viewed path).1 := by
  cases hplace : workspace.placeOfRoot none with
  | error fault =>
      have hfirst : workspace.viewed path = (.error .serverFault, workspace) := by
        rw [viewed, hplace]
      rw [hfirst]
      exact congrArg Prod.fst hfirst
  | ok place =>
      obtain ⟨refs, hrefs⟩ := Vault.viewed_eq_rememberAll (workspace.sharedVault none place)
        workspace.files workspace.settingsPath path
      rw [viewed_of_placeOfRoot hplace, hrefs]
      have hplace' : (workspace.putVault place
          ((workspace.sharedVault none place).rememberAll workspace.files refs)).placeOfRoot none
            = .ok place := hplace
      rw [viewed_of_placeOfRoot hplace', sharedVault, vaultAt_putVault]
      exact Vault.viewed_rememberAll _ _ _ _ _

/-- The vault just opened is the one that is used. -/
theorem run_useVault {α : Type} (workspace : Workspace) (place : Place) (vault : Vault)
    (ask : Vault → Files → Except Fault α × Vault) :
    Job.useVault place ask (workspace.putVault place vault)
      = ((ask vault workspace.files).1, workspace.putVault place (ask vault workspace.files).2) := by
  rw [Job.run_useVault, vaultAt_putVault, putVault_putVault]
  rfl

/-- To ask it leaves it as it is. -/
theorem run_askVault {α : Type} (workspace : Workspace) (place : Place) (vault : Vault)
    (ask : Vault → Files → Except Fault α) :
    Job.askVault place ask (workspace.putVault place vault)
      = (ask vault workspace.files, workspace.putVault place vault) :=
  run_useVault workspace place vault _

/-- To try to ask it is to ask it, whatever comes of it. -/
theorem run_attempt_askVault {α : Type} (workspace : Workspace) (place : Place) (vault : Vault)
    (ask : Vault → Files → Except Fault α) :
    Job.attempt (Job.askVault place ask) (workspace.putVault place vault)
      = (.ok (ask vault workspace.files), workspace.putVault place vault) := by
  rw [Job.attempt, run_askVault]

/-- The server opens the note that a path is taken for, or tells why it cannot. -/
theorem run_openNote (workspace : Workspace) (place : Place) (vault : Vault) (path : Text) :
    Web.openNote place path (workspace.putVault place vault)
      = (match vault.openNote workspace.files path with
          | .ok found => .ok (.ok found)
          | .error fault =>
              match Web.Answer.ofNoteFault? (vault.fileText workspace.files path) fault with
              | some answer => .ok (.error answer)
              | none => .error fault,
         workspace.putVault place vault) := by
  rw [Web.openNote, run_bind_of_ok (run_attempt_askVault workspace place vault _)]
  cases vault.openNote workspace.files path with
  | ok found => rfl
  | error fault =>
      have hfile := run_askVault workspace place vault fun v fs =>
        (.ok (v.fileText fs path) : Except Fault Text)
      simp only
      rw [run_bind_of_ok hfile]
      cases Web.Answer.ofNoteFault? (vault.fileText workspace.files path) fault with
      | none => rfl
      | some answer => rfl

/-- The layout that is stored is told by the settings file. -/
theorem run_storedLayout (workspace : Workspace) :
    Job.storedLayout workspace
      = ((Settings.load workspace.files workspace.settingsPath).map Settings.layout,
         workspace) := by
  have hloaded := Job.run_loadSettings workspace
  rw [Job.storedLayout]
  cases hload : Settings.load workspace.files workspace.settingsPath with
  | error fault =>
      rw [hload] at hloaded
      exact run_bind_of_error hloaded
  | ok settings =>
      rw [hload] at hloaded
      exact run_bind_of_ok hloaded

/-- What a request for a view of a note is answered with, once the note is seen or not. -/
def answerOf (view : NoteRef → Text → Web.Answer) :
    Except Web.Answer (NoteRef × Text) → Web.Answer
  | .ok (ref, shown) => view ref shown
  | .error answer => answer

/-- The directives of a note that is opened are replaced, and a view is made. -/
theorem run_shown (workspace : Workspace) (place : Place) (vault : Vault) (text : Text)
    (view : Text → Web.Answer) :
    (do
      let layout ← Job.storedLayout
      return view (← Job.useVault place fun v fs => v.expand fs text layout) : Job Web.Answer)
        (workspace.putVault place vault)
      = ((vault.shown workspace.files workspace.settingsPath text).1.map view,
         workspace.putVault place
           (vault.shown workspace.files workspace.settingsPath text).2) := by
  have hlayout : Job.storedLayout (workspace.putVault place vault)
      = ((Settings.load workspace.files workspace.settingsPath).map Settings.layout,
         workspace.putVault place vault) := run_storedLayout _
  rw [Vault.shown]
  cases hload : Settings.load workspace.files workspace.settingsPath with
  | error fault =>
      rw [hload] at hlayout
      exact run_bind_of_error hlayout
  | ok settings =>
      rw [hload] at hlayout
      rw [run_bind_of_ok hlayout]
      have hused : Job.useVault place (fun v fs => v.expand fs text settings.layout)
          (workspace.putVault place vault)
            = ((vault.expand workspace.files text settings.layout).1,
               workspace.putVault place
                 (vault.expand workspace.files text settings.layout).2) :=
        run_useVault workspace place vault _
      simp only
      generalize vault.expand workspace.files text settings.layout = expanded at hused ⊢
      obtain ⟨fault | shown, after⟩ := expanded
      · exact run_bind_of_error hused
      · exact run_bind_of_ok hused

/-- **THE VIEW IS MADE LAST**: all requests for views of a note do the same before. -/
theorem serve_of_viewNote {request : Web.Request} {view : NoteRef → Text → Web.Answer}
    (h : Web.answer request = Web.viewNote path view) :
    Web.serve request workspace
      = (answerOf view (workspace.viewed path).1, (workspace.viewed path).2) := by
  rw [Web.serve, h, Web.viewNote]
  cases hplace : workspace.placeOfRoot none with
  | error fault =>
      rw [run_bind_of_error (run_openVault_of_error hplace), viewed, hplace]
      rfl
  | ok place =>
      rw [run_bind_of_ok (run_openVault_of_ok hplace), viewed_of_placeOfRoot hplace]
      generalize workspace.sharedVault none place = vault
      have hopened := run_openNote workspace place vault path
      cases hnote : vault.openNote workspace.files path with
      | error fault =>
          rw [hnote] at hopened
          rw [Vault.viewed_of_openNote_error hnote]
          cases hanswer : Web.Answer.ofNoteFault? (vault.fileText workspace.files path) fault with
          | none =>
              simp only [hanswer] at hopened
              rw [run_bind_of_error hopened]
              rfl
          | some answer =>
              simp only [hanswer] at hopened
              rw [run_bind_of_ok hopened]
              rfl
      | ok found =>
          rw [hnote] at hopened
          obtain ⟨ref, text⟩ := found
          rw [Vault.viewed_of_openNote_ok hnote, run_bind_of_ok hopened]
          have hshown := run_shown workspace place vault text (view ref)
          simp only [hshown]
          cases (vault.shown workspace.files workspace.settingsPath text).1 <;> rfl

end Workspace

/-! ## The two requests -/

namespace Web

variable {path : Text}

/-- The request for a note as JSON. -/
def jsonRequest (path body : Text) : Request :=
  ⟨"GET".toList, Resource.notePath ++ path, body⟩

/-- The request for the page of a note. -/
def pageRequest (path body : Text) : Request :=
  ⟨"GET".toList, Resource.pagePath ++ path, body⟩

theorem ofPath?_of_newline_notMem (h : '\n' ∉ path) :
    Resource.ofPath? path = Resource.ofLine? path := by
  have hbefore : Text.before? ['\n'] path = none := by
    rw [Text.before?, Option.map_eq_none_iff, Option.eq_none_iff_forall_ne_some]
    intro rest hrest
    have hreverse := Text.after?_eq_some_iff.mp hrest
    refine h (List.mem_reverse.mp ?_)
    rw [hreverse]
    exact List.mem_cons_self
  rw [Resource.ofPath?, hbefore]
  exact if_neg (by simpa using h)

theorem answer_jsonRequest (h : '\n' ∉ path) (body : Text) :
    answer (jsonRequest path body) = getNote path := by
  have hline : '\n' ∉ Resource.notePath ++ path := by
    rw [List.mem_append, not_or]
    exact ⟨by decide, h⟩
  have hroute : Resource.ofPath? (Resource.notePath ++ path) = some (.note path) :=
    ofPath?_of_newline_notMem hline
  rw [answer, jsonRequest, hroute]
  rfl

theorem answer_pageRequest (h : '\n' ∉ path) (body : Text) :
    answer (pageRequest path body) = getPage path := by
  have hline : '\n' ∉ Resource.pagePath ++ path := by
    rw [List.mem_append, not_or]
    exact ⟨by decide, h⟩
  have hroute : Resource.ofPath? (Resource.pagePath ++ path) = some (.page path) :=
    ofPath?_of_newline_notMem hline
  rw [answer, pageRequest, hroute]
  rfl

/-- **AGREEMENT** of a note as JSON with its page: they have the same status; they tell the
    same reason where they are refused; and where they are fulfilled, the page bears the name,
    the path and the markdown that the JSON has. -/
structure ViewsAgree (json page : Answer) : Prop where
  status : json.status = page.status
  known : json.status ∈ [200, 400, 404, 422, 500]
  refused : json.status ∈ [400, 404, 422] →
    ∃ reason, json = .detail json.status reason ∧ page = .detail json.status reason
  fulfilled : json.status = 200 →
    ∃ note markdown text, json = .ok (note.json (some markdown)) ∧ page = .page text
      ∧ IsPageOf text note markdown

/-- An answer that turns a request for a note down, or says that something failed. -/
def Answer.TurnsDown (answer : Answer) : Prop :=
  answer = .serverFault ∨ ∃ status ∈ [400, 404, 422], ∃ reason, answer = .detail status reason

theorem turnsDown_ofNoteFault (file : Text) (fault : Fault) :
    ((Answer.ofNoteFault? file fault).getD .serverFault).TurnsDown := by
  rw [Answer.ofNoteFault?]
  split
  · exact .inr ⟨400, by decide, _, rfl⟩
  · split
    · exact .inr ⟨404, by decide, _, rfl⟩
    · split
      · exact .inr ⟨422, by decide, _, rfl⟩
      · exact .inl rfl

theorem Answer.TurnsDown.status_ne {answer : Answer} (h : answer.TurnsDown) :
    answer.status ≠ 200 := by
  rcases h with rfl | ⟨status, hstatus, reason, rfl⟩
  · exact (by decide : 500 ≠ 200)
  · rintro (rfl : status = 200)
    exact absurd hstatus (by decide)

theorem Answer.TurnsDown.viewsAgree {answer : Answer} (h : answer.TurnsDown) :
    ViewsAgree answer answer := by
  rcases h with rfl | ⟨status, hstatus, reason, rfl⟩
  · exact ⟨rfl, by decide, fun h => absurd h (by decide), fun h => absurd h (by decide)⟩
  · refine ⟨rfl, ?_, fun _ => ⟨reason, rfl, rfl⟩, ?_⟩
    · exact List.mem_cons_of_mem _ (List.mem_append_left [500] hstatus)
    · rintro (rfl : status = 200)
      exact absurd hstatus (by decide)

/-- Two views of what is seen agree. -/
theorem viewsAgree_answerOf {seen : Except Answer (NoteRef × Text)}
    (h : ∀ answer, seen = .error answer → answer.TurnsDown) :
    ViewsAgree (Workspace.answerOf (fun note markdown => .ok (note.json (some markdown))) seen)
      (Workspace.answerOf (fun note markdown => .page (notePage note (.ofText markdown))) seen) := by
  cases seen with
  | error answer => exact (h answer rfl).viewsAgree
  | ok found =>
      obtain ⟨note, markdown⟩ := found
      refine ⟨rfl, List.mem_cons_self, fun h => ?_, fun _ => ?_⟩
      · exact absurd h (by decide : 200 ∉ [400, 404, 422])
      · exact ⟨note, markdown, _, rfl, rfl, isPageOf_notePage note markdown⟩

end Web

namespace Workspace

open Web

theorem turnsDown_viewed (workspace : Workspace) (path : Text) :
    ∀ answer, (workspace.viewed path).1 = .error answer → answer.TurnsDown := by
  intro answer h
  cases hplace : workspace.placeOfRoot none with
  | error fault =>
      rw [viewed, hplace] at h
      exact .inl (Except.error.inj h).symm
  | ok place =>
      rw [viewed_of_placeOfRoot hplace] at h
      generalize workspace.sharedVault none place = vault at h
      cases hopened : vault.openNote workspace.files path with
      | error fault =>
          rw [Vault.viewed_of_openNote_error hopened] at h
          rw [← Except.error.inj h]
          exact turnsDown_ofNoteFault _ fault
      | ok opened =>
          rw [Vault.viewed_of_openNote_ok hopened] at h
          cases hshown : (vault.shown workspace.files workspace.settingsPath opened.2).1 with
          | error fault =>
              rw [hshown] at h
              exact .inl (Except.error.inj h).symm
          | ok shown =>
              rw [hshown] at h
              cases h

/-- **THE TWO VIEWS OF A NOTE AGREE**, asked for in one state of things, or one after the other
    in either order. -/
theorem note_views_agree (workspace : Workspace) {path : Text} (hpath : '\n' ∉ path)
    (body body' : Text) :
    let json := serve (jsonRequest path body) workspace
    let page := serve (pageRequest path body') workspace
    ViewsAgree json.1 page.1
      ∧ ViewsAgree json.1 (serve (pageRequest path body') json.2).1
      ∧ ViewsAgree (serve (jsonRequest path body) page.2).1 page.1 := by
  have hjson : ∀ before : Workspace, serve (jsonRequest path body) before = _ :=
    fun _ => serve_of_viewNote (answer_jsonRequest hpath body)
  have hpage : ∀ before : Workspace, serve (pageRequest path body') before = _ :=
    fun _ => serve_of_viewNote (answer_pageRequest hpath body')
  have hagree := viewsAgree_answerOf (turnsDown_viewed workspace path)
  simp only [hjson, hpage, viewed_again]
  exact ⟨hagree, hagree, hagree⟩

/-- A page and the same note as JSON, asked for one after the other. -/
theorem pair_views_agree :
    '\n' ∉ "c.md".toList
      ∧ ViewsAgree (serve (jsonRequest "c.md".toList []) pair).1
        (serve (pageRequest "c.md".toList []) (serve (jsonRequest "c.md".toList []) pair).2).1
      ∧ (serve (jsonRequest "c.md".toList []) pair).1.status = 200 := by
  have hline : '\n' ∉ "c.md".toList := by decide
  exact ⟨hline, (note_views_agree pair hline [] []).2.1, by decide +kernel⟩

end Workspace
end NoteDigest
