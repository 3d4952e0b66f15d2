import NoteDigest.Proofs.Files.Sparing
import NoteDigest.Proofs.Workspace.Serving
import NoteDigest.Proofs.Workspace.Updating

/-! # The footprint — the files that the server writes

    Answering a request leaves all files as they are, unless it puts settings: every job that
    the other routes lead to is put together from parts that write nothing (`Job.Leaves`,
    `leaves_answer`).  Settings that are put are written to the place that the path of the
    settings file denotes (`Job.WritesOnlySettings`); when that fails, directories on the way
    to this place are all that can be new.

    So over any run of requests no file changes but the one that this path denotes, and that
    one only where settings are put and the answer is 200 (`serving_writes_settings_only`). -/

namespace NoteDigest

open Files

/-! ## Saving -/

namespace Settings

variable {fs fs' : Files} {path : Text} {settings : Settings} {stamp : Stamp}

theorem run_apply_of_error {step : Files → Except FileFault Files} {fault : FileFault}
    (h : Change.apply step fs = (.error fault, fs')) : fs' = fs := by
  have hget : (get : Change Files) fs = (.ok fs, fs) := rfl
  rw [Change.apply, run_bind_of_ok hget] at h
  cases hstep : step fs with
  | error _ =>
      rw [hstep] at h
      exact (congrArg Prod.snd h).symm
  | ok found =>
      rw [hstep] at h
      cases congrArg Prod.fst h

/-- When saving fails, no more has been done than to make way for the file. -/
theorem save_eq_error {fault : FileFault} (h : save path settings stamp fs = (.error fault, fs')) :
    fs' = fs ∨ fs' = (Change.makeWay (home fs path).reverse fs).2 := by
  have hget : (get : Change Files) fs = (.ok fs, fs) := rfl
  rw [save, run_bind_of_ok hget, run_bind_of_ok hget] at h
  change (if (!fs.isPresent (Path.toPlace (home fs path))) = true
    then Change.makeWay (home fs path).reverse >>= _ else _) fs = _ at h
  cases hpresent : fs.isPresent (Path.toPlace (home fs path)) with
  | true =>
      rw [hpresent] at h
      exact .inl (run_apply_of_error h)
  | false =>
      rw [hpresent, if_pos (by rfl)] at h
      rcases hway : Change.makeWay (home fs path).reverse fs with ⟨fault' | _, middle⟩
      · rw [run_bind_of_error hway] at h
        exact .inr (congrArg Prod.snd h).symm
      · rw [run_bind_of_ok hway] at h
        exact .inr (run_apply_of_error h)

theorem MakesWay.spares {middle : Files} (h : MakesWay fs path middle) : fs.Spares middle ∅ := by
  rw [MakesWay] at h
  split at h
  · rw [h]
    exact .refl fs ∅
  · have hspared := spares_makeWay (home fs path).reverse fs
    rwa [h] at hspared

/-- **SAVING SETTINGS** spares the tree but for the place that their path denotes, and that one
    too if it fails. -/
theorem spares_save {result : Except FileFault Unit} (hfs : fs.WellFormed)
    (hpath : Text.hasNul path = false) (h : save path settings stamp fs = (result, fs')) :
    fs'.WellFormed
      ∧ fs.Spares fs' {place | result = .ok () ∧ fs'.Denotes (Path.ofText path) place} := by
  cases result with
  | error fault =>
      rcases save_eq_error h with rfl | rfl
      · exact ⟨hfs, .refl _ _⟩
      · have hkept := Change.keeps_makeWay (home fs path).reverse
          (fun name hname => isPiece_home hfs hpath name (List.mem_reverse.mp hname)) fs hfs
        exact ⟨hkept, (spares_makeWay _ fs).mono (Set.empty_subset _)⟩
  | ok _ =>
      obtain ⟨middle, hway, hwrite⟩ := save_eq_ok_iff.mp h
      have hmiddle := hway.wellFormed hfs hpath
      have hboth := hway.spares.trans (spares_write hmiddle hwrite)
      rw [Set.empty_union] at hboth
      exact ⟨hmiddle.write (Path.isPiece_ofText hpath) hwrite,
        hboth.mono fun place hplace => ⟨rfl, hplace⟩⟩

end Settings

/-! ## Jobs that leave the files -/

namespace Job

variable {α β : Type} {job : Job α}

/-- A job leaves all files as they are, and the path of the settings file too. -/
def Leaves (job : Job α) : Prop :=
  ∀ workspace, (job workspace).2.files = workspace.files
    ∧ (job workspace).2.settingsPath = workspace.settingsPath

namespace Leaves

theorem pure (value : α) : Leaves (pure value : Job α) :=
  fun _ => ⟨rfl, rfl⟩

theorem throw (fault : Fault) : Leaves (throw fault : Job α) :=
  fun _ => ⟨rfl, rfl⟩

/-- **ONE AFTER THE OTHER**: what comes next finds the files as they were. -/
theorem bind {next : α → Job β} (hjob : Leaves job) (hnext : ∀ value, Leaves (next value)) :
    Leaves (job >>= next) := by
  intro workspace
  have hfirst := hjob workspace
  rcases hrun : job workspace with ⟨fault | value, middle⟩
  · rw [run_bind_of_error hrun]
    rwa [hrun] at hfirst
  · rw [run_bind_of_ok hrun]
    rw [hrun] at hfirst
    obtain ⟨hfiles, hpath⟩ := hnext value middle
    exact ⟨hfiles.trans hfirst.1, hpath.trans hfirst.2⟩

theorem attempt (hjob : Leaves job) : Leaves (attempt job) :=
  hjob

theorem useVault (place : Place) (ask : Vault → Files → Except Fault α × Vault) :
    Leaves (useVault place ask) := by
  intro workspace
  rw [run_useVault]
  exact ⟨rfl, rfl⟩

theorem askVault (place : Place) (ask : Vault → Files → Except Fault α) :
    Leaves (askVault place ask) :=
  useVault place _

theorem openVault (root : Option Text) : Leaves (openVault root) := by
  intro workspace
  cases hplace : workspace.placeOfRoot root with
  | error fault =>
      rw [Workspace.run_openVault_of_error hplace]
      exact ⟨rfl, rfl⟩
  | ok place =>
      rw [Workspace.run_openVault_of_ok hplace]
      exact ⟨rfl, rfl⟩

theorem loadSettings : Leaves loadSettings := by
  intro workspace
  rw [run_loadSettings]
  exact ⟨rfl, rfl⟩

theorem storedLayout : Leaves storedLayout :=
  loadSettings.bind fun _ => .pure _

end Leaves
end Job

/-! ## Requests that leave the files -/

namespace Web

open Job

theorem leaves_openNote (vault : Place) (path : Text) : Leaves (openNote vault path) := by
  refine (Leaves.askVault vault _).attempt.bind fun result => ?_
  cases result with
  | ok found => exact .pure _
  | error fault =>
      refine (Leaves.askVault vault _).bind fun file => ?_
      cases Answer.ofNoteFault? file fault with
      | some answer => exact .pure _
      | none => exact .throw fault

theorem leaves_viewNote (path : Text) (view : NoteRef → Text → Answer) :
    Leaves (viewNote path view) := by
  refine (Leaves.openVault none).bind fun vault => ?_
  refine (leaves_openNote vault path).bind fun opened => ?_
  cases opened with
  | error answer => exact .pure answer
  | ok found => exact Leaves.storedLayout.bind fun _ => (Leaves.useVault _ _).bind fun _ => .pure _

theorem leaves_postSummary (source : Text) (layout? : Option Layout) :
    Leaves (postSummary source layout?) := by
  have hsummary : ∀ layout, Leaves (do
      let vault ← openVault none
      let summary ← useVault vault fun v fs => v.summary fs source layout
      return Answer.ok summary.json) := fun layout =>
    (Leaves.openVault none).bind fun _ => (Leaves.useVault _ _).bind fun _ => .pure _
  cases layout? with
  | some layout => exact (Leaves.pure layout).bind hsummary
  | none => exact Leaves.storedLayout.bind hsummary

theorem leaves_withPayload {α : Type} {check : Json → Payload.Checked α} {body : Text}
    {act : α → Job Answer} (h : ∀ given, Leaves (act given)) :
    Leaves (withPayload check body act) := by
  rw [withPayload]
  split
  · exact h _
  · exact .pure _

/-- A request to put settings, by its method and the resource that its path names. -/
def Request.PutsSettings (request : Request) : Prop :=
  request.method = "PUT".toList ∧ Resource.ofPath? request.path = some .settings

/-- A resource that takes one method leaves the files, if fulfilling that method does. -/
theorem leaves_ite {c : Bool} {job : Job Answer} (h : Leaves job) :
    Leaves (if c = true then job else return .wrongMethod) := by
  split
  · exact h
  · exact .pure _

/-- **ALL ROUTES BUT ONE** leave the files. -/
theorem leaves_answer {request : Request} (h : ¬ request.PutsSettings) :
    Leaves (answer request) := by
  rw [answer]
  cases hresource : Resource.ofPath? request.path with
  | none => exact .pure _
  | some resource =>
      cases resource with
      | index =>
          exact leaves_ite ((Leaves.openVault none).bind fun _ =>
            (Leaves.askVault _ _).bind fun _ => .pure _)
      | page path => exact leaves_ite (leaves_viewNote path _)
      | summary =>
          exact leaves_ite (leaves_withPayload fun given => leaves_postSummary given.1 given.2)
      | directive => exact leaves_ite (leaves_withPayload fun _ => .pure _)
      | tags =>
          exact leaves_ite ((Leaves.openVault none).bind fun _ =>
            (Leaves.useVault _ _).bind fun _ => .pure _)
      | notes =>
          exact leaves_ite ((Leaves.openVault none).bind fun _ =>
            (Leaves.askVault _ _).bind fun _ => .pure _)
      | note path => exact leaves_ite (leaves_viewNote path _)
      | settings =>
          have hput : (request.method == "PUT".toList) = false :=
            beq_false_of_ne fun hmethod => h ⟨hmethod, hresource⟩
          show Leaves (if (request.method == "GET".toList) = true then _
            else if (request.method == "PUT".toList) = true then _ else _)
          rw [hput]
          split
          · exact Leaves.loadSettings.bind fun _ => .pure _
          · exact .pure _

end Web

/-! ## Requests that put settings -/

namespace Workspace

variable {workspace after middle : Workspace} {written : Set Place}

/-- The places of the files that settings are written to. -/
def settingsPlaces (workspace : Workspace) : Set Place :=
  {place | workspace.files.Denotes (Path.ofText workspace.settingsPath) place}

/-- **A WORKSPACE IS KEPT** but for the files at some places. -/
structure Keeps (workspace after : Workspace) (written : Set Place) : Prop where
  files : after.files.WellFormed
  settingsPath : after.settingsPath = workspace.settingsPath
  spares : workspace.files.Spares after.files written

theorem Keeps.refl (hfs : workspace.files.WellFormed) : workspace.Keeps workspace written :=
  ⟨hfs, rfl, .refl _ _⟩

theorem Keeps.mono {written' : Set Place} (h : workspace.Keeps after written)
    (hsubset : written ⊆ written') : workspace.Keeps after written' :=
  ⟨h.files, h.settingsPath, h.spares.mono hsubset⟩

theorem Keeps.trans {written' : Set Place} (h : workspace.Keeps middle written)
    (h' : middle.Keeps after written') : workspace.Keeps after (written ∪ written') :=
  ⟨h'.files, h'.settingsPath.trans h.settingsPath, h.spares.trans h'.spares⟩

/-- The path of the settings file goes on denoting what it denoted. -/
theorem Keeps.settingsPlaces_subset (h : workspace.Keeps after written) :
    workspace.settingsPlaces ⊆ after.settingsPlaces := by
  intro place hplace
  rw [settingsPlaces, h.settingsPath]
  exact h.spares.denotes hplace

theorem Keeps.of_leaves {α : Type} {job : Job α} (hfs : workspace.files.WellFormed)
    (h : job.Leaves) : workspace.Keeps (job workspace).2 written := by
  obtain ⟨hfiles, hpath⟩ := h workspace
  refine ⟨?_, hpath, ?_⟩
  · rwa [hfiles]
  · rw [hfiles]
    exact .refl _ _

end Workspace

namespace Job

variable {α β : Type} {job : Job α}

/-- **A JOB WRITES ONLY SETTINGS**: it changes no file but that of the settings, and not this one
    either if it fails. -/
def WritesOnlySettings (job : Job α) : Prop :=
  ∀ workspace result after, workspace.files.WellFormed → job workspace = (result, after) →
    workspace.Keeps after
      {place | (∃ value, result = .ok value) ∧ place ∈ after.settingsPlaces}

namespace WritesOnlySettings

/-- What leaves the files may come first. -/
theorem of_leaves_bind {next : α → Job β} (hjob : Leaves job)
    (hnext : ∀ value, WritesOnlySettings (next value)) : WritesOnlySettings (job >>= next) := by
  intro workspace result after hfs h
  have hfirst : workspace.Keeps (job workspace).2 ∅ := .of_leaves hfs hjob
  rcases hrun : job workspace with ⟨fault | value, middle⟩
  · rw [run_bind_of_error hrun] at h
    obtain ⟨rfl, rfl⟩ := Prod.mk.inj h
    rw [hrun] at hfirst
    exact hfirst.mono (Set.empty_subset _)
  · rw [run_bind_of_ok hrun] at h
    rw [hrun] at hfirst
    have hboth := hfirst.trans (hnext value middle result after hfirst.files h)
    rwa [Set.empty_union] at hboth

/-- Something may be made of the result. -/
theorem bind_pure (hjob : WritesOnlySettings job) (give : α → β) :
    WritesOnlySettings (job >>= fun value => pure (give value)) := by
  intro workspace result after hfs h
  rcases hrun : job workspace with ⟨fault | value, middle⟩
  · have hkept := hjob _ _ _ hfs hrun
    rw [run_bind_of_error hrun] at h
    obtain ⟨rfl, rfl⟩ := Prod.mk.inj h
    refine hkept.mono ?_
    rintro place ⟨⟨_, hfalse⟩, -⟩
    cases hfalse
  · have hkept := hjob _ _ _ hfs hrun
    rw [run_bind_of_ok hrun] at h
    obtain ⟨rfl, rfl⟩ := Prod.mk.inj h
    exact hkept.mono fun place hplace => ⟨⟨_, rfl⟩, hplace.2⟩

theorem saveSettings (settings : Settings) : WritesOnlySettings (saveSettings settings) := by
  intro workspace result after hfs h
  have hget : (get : Job Workspace) workspace = (.ok workspace, workspace) := rfl
  rw [Job.saveSettings, run_bind_of_ok hget] at h
  cases hpath : Text.hasNul workspace.settingsPath with
  | true =>
      -- the system takes no path with a NUL
      rw [hpath] at h
      obtain rfl : workspace = after := congrArg Prod.snd h
      exact .refl hfs
  | false =>
      rw [hpath] at h
      change change (Settings.save workspace.settingsPath settings) workspace = _ at h
      rw [run_change] at h
      rcases hsave : Settings.save workspace.settingsPath settings (.tick workspace.ticks)
        workspace.files with ⟨outcome, files⟩
      obtain ⟨hfiles, hspared⟩ := Settings.spares_save hfs hpath hsave
      rw [hsave] at h
      obtain ⟨rfl, rfl⟩ := Prod.mk.inj h
      refine ⟨hfiles, rfl, hspared.mono ?_⟩
      rintro place ⟨rfl, hplace⟩
      exact ⟨⟨(), rfl⟩, hplace⟩

theorem updateSettings (patch : SettingsPatch) : WritesOnlySettings (updateSettings patch) :=
  of_leaves_bind Leaves.loadSettings fun settings =>
    (saveSettings (settings.apply patch)).bind_pure fun _ => settings.apply patch

end WritesOnlySettings
end Job

namespace Workspace

variable {workspace after : Workspace}

theorem serve_eq {request : Web.Request} {result : Except Fault Web.Answer}
    (h : Web.answer request workspace = (result, after)) :
    Web.serve request workspace = (result.toOption.getD .serverFault, after) := by
  rw [Web.serve, h]
  cases result <;> rfl

/-- Settings that are put have to pass a check, and then update those that are stored. -/
theorem answer_of_putsSettings {request : Web.Request} (h : request.PutsSettings) :
    Web.answer request = Web.withPayload Payload.settingsPatch request.body fun patch =>
      return .ok (← Job.updateSettings patch).json := by
  obtain ⟨hmethod, hresource⟩ := h
  rw [Web.answer, hresource]
  show Web.answerFor .settings request = _
  rw [Web.answerFor, hmethod]
  rfl

/-- **ONE REQUEST** keeps the workspace but for the settings, and those too unless they are put
    and the answer is 200. -/
theorem keeps_serve (hfs : workspace.files.WellFormed) (request : Web.Request) :
    workspace.Keeps (Web.serve request workspace).2
      {place | (request.PutsSettings ∧ (Web.serve request workspace).1.status = 200)
        ∧ place ∈ (Web.serve request workspace).2.settingsPlaces} := by
  by_cases hputs : request.PutsSettings
  · have hanswer := answer_of_putsSettings hputs
    rw [Web.withPayload] at hanswer
    cases hgiven : Web.payload Payload.settingsPatch request.body with
    | error refusal =>
        simp only [hgiven] at hanswer
        rw [Web.serve, hanswer]
        exact .of_leaves hfs (.pure refusal)
    | ok patch =>
        simp only [hgiven] at hanswer
        have hwrites : (Web.answer request).WritesOnlySettings := by
          rw [hanswer]
          exact (Job.WritesOnlySettings.updateSettings patch).bind_pure _
        rcases hrun : Web.answer request workspace with ⟨fault | found, after⟩
        · rw [serve_eq hrun]
          refine (hwrites _ _ _ hfs hrun).mono ?_
          rintro place ⟨⟨_, hfalse⟩, -⟩
          cases hfalse
        · -- what has been updated is answered 200
          have hkept := hwrites _ _ _ hfs hrun
          rw [serve_eq hrun]
          rw [hanswer] at hrun
          obtain ⟨settings, middle, -, hrun⟩ := exists_of_run_bind_ok hrun
          cases hrun
          exact hkept.mono fun place hplace => ⟨⟨hputs, rfl⟩, hplace.2⟩
  · rw [serve_eq (Prod.eta _).symm]
    exact .of_leaves hfs (Web.leaves_answer hputs)

/-! ## Runs of requests -/

/-- The workspace after some requests have been served, one after the other. -/
def afterServing (workspace : Workspace) (requests : List Web.Request) : Workspace :=
  requests.foldl (fun now request => (Web.serve request now).2) workspace

theorem afterServing_append (workspace : Workspace) (requests later : List Web.Request) :
    workspace.afterServing (requests ++ later)
      = (workspace.afterServing requests).afterServing later :=
  List.foldl_append

/-- **ALL REQUESTS** keep the workspace but for the settings: by induction on those that were
    served before, as what the path of the settings file denoted then it still denotes. -/
theorem keeps_afterServing (hfs : workspace.files.WellFormed) (requests : List Web.Request) :
    workspace.Keeps (workspace.afterServing requests)
      (workspace.afterServing requests).settingsPlaces := by
  induction requests using List.reverseRecOn with
  | nil => exact .refl hfs
  | append_singleton requests request ih =>
      have hstep := keeps_serve ih.files request
      rw [afterServing_append]
      exact (ih.trans hstep).mono
        (Set.union_subset hstep.settingsPlaces_subset fun place hplace => hplace.2)

/-- **THE SERVER WRITES NOTHING BUT ITS SETTINGS**, whatever it is asked for:

    * a file that is new, gone or changed after a run of requests is the one that the path of
      the settings file denotes;
    * the path denotes no other place than this, and denoted no other at any time before;
    * any file is new, gone or changed after one request of the run only if this request puts
      settings and is answered 200;
    * so a request that is sent on, turned down or answered as a fault of the server leaves
      all files as they were. -/
theorem serving_writes_settings_only (hfs : workspace.files.WellFormed)
    (requests : List Web.Request) :
    (∀ place, (workspace.afterServing requests).files.fileAt? place
          ≠ workspace.files.fileAt? place →
        (workspace.afterServing requests).files.Denotes (Path.ofText workspace.settingsPath) place)
      ∧ (∀ i place other,
          (workspace.afterServing (requests.take i)).files.Denotes
              (Path.ofText workspace.settingsPath) place →
            ((workspace.afterServing requests).files.Denotes
              (Path.ofText workspace.settingsPath) other ↔ other = place))
      ∧ ∀ i request, requests[i]? = some request →
          ((∃ place, (workspace.afterServing (requests.take (i + 1))).files.fileAt? place
              ≠ (workspace.afterServing (requests.take i)).files.fileAt? place) →
            request.PutsSettings
              ∧ (Web.serve request (workspace.afterServing (requests.take i))).1.status = 200)
          ∧ (300 ≤ (Web.serve request (workspace.afterServing (requests.take i))).1.status →
            ∀ place, (workspace.afterServing (requests.take (i + 1))).files.fileAt? place
              = (workspace.afterServing (requests.take i)).files.fileAt? place) := by
  have hrun := keeps_afterServing hfs requests
  refine ⟨fun place hplace => ?_, fun i place other hplace => ?_, fun i request hrequest => ?_⟩
  · by_contra hother
    refine hplace (hrun.spares.fileAt?_eq fun hmem => hother ?_)
    rwa [settingsPlaces, hrun.settingsPath] at hmem
  · -- the requests from then on are a run of their own
    have hlater := keeps_afterServing (keeps_afterServing hfs (requests.take i)).files
      (requests.drop i)
    rw [← afterServing_append, List.take_append_drop] at hlater
    have hstays := hlater.spares.denotes hplace
    constructor
    · exact fun hother => hother.unique hstays
    · rintro rfl
      exact hstays
  · have htake : requests.take (i + 1) = requests.take i ++ [request] := by
      rw [List.take_add_one, hrequest]
      rfl
    have hstep := keeps_serve (keeps_afterServing hfs (requests.take i)).files request
    rw [htake, afterServing_append]
    constructor
    · rintro ⟨place, hplace⟩
      by_contra hother
      exact hplace (hstep.spares.fileAt?_eq fun hmem => hother hmem.1)
    · intro hstatus place
      refine hstep.spares.fileAt?_eq fun hmem => ?_
      have hfulfilled : (Web.serve request _).1.status = 200 := hmem.1.2
      omega

/-- Settings are put, then others that are none, and then a note is to be deleted. -/
def puttings : List Web.Request :=
  [⟨"PUT".toList, "/api/settings".toList, "\x7b\"include_link\": false\x7d".toList⟩,
   ⟨"PUT".toList, "/api/settings".toList, "\x7b\"include_link\": 3\x7d".toList⟩,
   ⟨"DELETE".toList, "/api/notes/c.md".toList, []⟩]

/-- The first request has made the settings file, and the others have changed nothing. -/
theorem pair_puttings :
    pair.files.WellFormed
      ∧ pair.files.fileAt? ["settings.json".toList] = none
      ∧ ((pair.afterServing puttings).files.fileAt? ["settings.json".toList]).isSome = true
      ∧ (pair.afterServing puttings).files.Denotes (Path.ofText "settings.json".toList)
        ["settings.json".toList]
      ∧ (pair.afterServing puttings).files.fileAt? ["vault".toList, "c.md".toList]
        = (pair.afterServing (puttings.take 2)).files.fileAt? ["vault".toList, "c.md".toList] := by
  obtain ⟨hchanged, -, hstep⟩ := serving_writes_settings_only wellFormed_pair puttings
  have hnone : pair.files.fileAt? ["settings.json".toList] = none := by decide +kernel
  have hmade : ((pair.afterServing puttings).files.fileAt? ["settings.json".toList]).isSome
      = true := by decide +kernel
  have hne : (pair.afterServing puttings).files.fileAt? ["settings.json".toList]
      ≠ pair.files.fileAt? ["settings.json".toList] := by
    rw [hnone]
    exact Option.isSome_iff_ne_none.mp hmade
  exact ⟨wellFormed_pair, hnone, hmade, hchanged _ hne,
    (hstep 2 _ rfl).2 (by decide +kernel) _⟩

end Workspace
end NoteDigest
