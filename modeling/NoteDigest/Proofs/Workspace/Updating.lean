import Mathlib.Data.List.Induction
import NoteDigest.Proofs.Settings.Saving
import NoteDigest.Proofs.Workspace.Session
import NoteDigest.Workspace.Settings

/-! # Updating — stored settings over a run of updates

    Where settings are ready (`Ready`), they are loaded, and an update puts its patch over
    them and leaves the outcome ready (`Ready.request`).  So over a run of updates and loads,
    one after the other, every toggle has the value that it was given last, or the one it had
    at first (`updates_override`).  Once something has been updated, the file holds the text
    of these settings, and nothing is left of what it held before. -/

namespace NoteDigest

variable {workspace after : Workspace} {settings settings' : Settings}

/-! ## Jobs on settings -/

namespace Job

/-- The files are changed, be the change done or broken off. -/
theorem run_change {α : Type} (act : Stamp → Files.Change α) (workspace : Workspace) :
    change act workspace
      = ((act (.tick workspace.ticks) workspace.files).1.mapError Fault.file,
         { workspace with
           files := (act (.tick workspace.ticks) workspace.files).2
           ticks := workspace.ticks + 1 }) := by
  have hget : (get : Job Workspace) workspace = (.ok workspace, workspace) := rfl
  rw [change, run_bind_of_ok hget]
  exact run_ofExcept _ _

/-- **SAVING SETTINGS** in a workspace changes its files and nothing else. -/
theorem saveSettings_eq_ok_iff : saveSettings settings workspace = (.ok (), after) ↔
    Text.hasNul workspace.settingsPath = false
      ∧ ∃ files, Settings.save workspace.settingsPath settings (.tick workspace.ticks)
          workspace.files = (.ok (), files)
        ∧ after = { workspace with files := files, ticks := workspace.ticks + 1 } := by
  have hget : (get : Job Workspace) workspace = (.ok workspace, workspace) := rfl
  rw [saveSettings, run_bind_of_ok hget]
  cases Text.hasNul workspace.settingsPath with
  | true => exact ⟨nofun, nofun⟩
  | false =>
      show change (Settings.save workspace.settingsPath settings) workspace = _ ↔ _
      rw [run_change]
      rcases Settings.save workspace.settingsPath settings (.tick workspace.ticks)
        workspace.files with ⟨fault | _, files⟩
      · exact ⟨nofun, nofun⟩
      · constructor
        · intro h
          exact ⟨rfl, files, rfl, (congrArg Prod.snd h).symm⟩
        · rintro ⟨-, files', hfiles, rfl⟩
          rw [congrArg Prod.snd hfiles]
          rfl

end Job

namespace Workspace

/-! ## Where settings are ready -/

/-- **SETTINGS ARE READY**: they are loaded, and settings can be saved in their place. -/
structure Ready (workspace : Workspace) (settings : Settings) : Prop where
  files : workspace.files.WellFormed
  load : Settings.load workspace.files workspace.settingsPath = .ok settings
  save : ∃ other, (Job.saveSettings other workspace).1 = .ok ()

/-- **SETTINGS THAT HAVE BEEN SAVED** are stored, and ready. -/
theorem ready_of_save (hfs : workspace.files.WellFormed)
    (h : Job.saveSettings settings workspace = (.ok (), after)) :
    after.settingsPath = workspace.settingsPath
      ∧ Settings.Stored after.files workspace.settingsPath settings
      ∧ after.Ready settings := by
  obtain ⟨hpath, files, hsave, hafter⟩ := Job.saveSettings_eq_ok_iff.mp h
  have hfiles : after.files = files := by rw [hafter]
  have hsame : after.settingsPath = workspace.settingsPath := by rw [hafter]
  have hstored : Settings.Stored after.files after.settingsPath settings := by
    rw [hfiles, hsame]
    exact Settings.stored_of_save hfs hpath hsave
  obtain ⟨files', hsave'⟩ := hstored.save settings (.tick after.ticks)
  have hagain := Job.saveSettings_eq_ok_iff.mpr ⟨hsame ▸ hpath, files', hsave', rfl⟩
  refine ⟨hsame, hsame ▸ hstored, hstored.files, hstored.load, settings, ?_⟩
  rw [hagain]

namespace Ready

/-- **ANY SETTINGS CAN BE SAVED** where some are ready. -/
theorem exists_save (h : workspace.Ready settings) (settings' : Settings) :
    ∃ after, Job.saveSettings settings' workspace = (.ok (), after) := by
  obtain ⟨other, hother⟩ := h.save
  obtain ⟨hpath, files, hsave, -⟩ := Job.saveSettings_eq_ok_iff.mp (Prod.ext hother rfl)
  obtain ⟨files', hsave'⟩ := Settings.save_other hsave settings' (.tick workspace.ticks)
  exact ⟨_, Job.saveSettings_eq_ok_iff.mpr ⟨hpath, files', hsave', rfl⟩⟩

theorem run_load (h : workspace.Ready settings) :
    Job.loadSettings workspace = (.ok settings, workspace) := by
  rw [Job.run_loadSettings, h.load]

/-- **AN UPDATE** gives the settings with its patch put over them, and leaves them stored and
    ready. -/
theorem run_update (h : workspace.Ready settings) (patch : SettingsPatch) :
    ∃ after, Job.updateSettings patch workspace = (.ok (settings.apply patch), after)
      ∧ after.settingsPath = workspace.settingsPath
      ∧ Settings.Stored after.files workspace.settingsPath (settings.apply patch)
      ∧ after.Ready (settings.apply patch) := by
  obtain ⟨after, hsave⟩ := h.exists_save (settings.apply patch)
  refine ⟨after, ?_, ready_of_save h.files hsave⟩
  rw [Job.updateSettings, run_bind_of_ok h.run_load, run_bind_of_ok hsave]
  rfl

end Ready
end Workspace

/-! ## Runs of updates -/

/-- What can be asked of stored settings. -/
inductive SettingsRequest
  | load
  | update (patch : SettingsPatch)

namespace SettingsRequest

/-- The job that answers a request. -/
def job : SettingsRequest → Job Settings
  | .load => Job.loadSettings
  | .update patch => Job.updateSettings patch

/-- The value that a request gives to a toggle, if any. -/
def value? (request : SettingsRequest) (toggle : Toggle) : Option Bool :=
  match request with
  | .load => none
  | .update patch => patch.value? toggle

/-- The settings after a request. -/
def onto (request : SettingsRequest) (settings : Settings) : Settings :=
  match request with
  | .load => settings
  | .update patch => settings.apply patch

theorem value_onto (request : SettingsRequest) (settings : Settings) (toggle : Toggle) :
    (request.onto settings).value toggle
      = (request.value? toggle).getD (settings.value toggle) := by
  cases request with
  | load => rfl
  | update patch => exact settings.value_apply patch toggle

/-- The value that a toggle is given last by some requests. -/
def lastValue? (requests : List SettingsRequest) (toggle : Toggle) : Option Bool :=
  (requests.filterMap (·.value? toggle)).getLast?

theorem lastValue?_concat (requests : List SettingsRequest) (request : SettingsRequest)
    (toggle : Toggle) : lastValue? (requests ++ [request]) toggle
      = (request.value? toggle).or (lastValue? requests toggle) := by
  rw [lastValue?, List.filterMap_append, List.getLast?_append]
  cases hvalue : request.value? toggle with
  | none => simp [hvalue, lastValue?]
  | some value => simp [hvalue]

end SettingsRequest

open SettingsRequest

/-- Settings where every toggle has the value that some requests give it last, or stays as it
    is. -/
def Settings.overridden (settings : Settings) (requests : List SettingsRequest) : Settings :=
  .ofValues fun toggle => (lastValue? requests toggle).getD (settings.value toggle)

theorem Settings.value_overridden (settings : Settings) (requests : List SettingsRequest)
    (toggle : Toggle) : (settings.overridden requests).value toggle
      = (lastValue? requests toggle).getD (settings.value toggle) :=
  Settings.value_ofValues _ toggle

/-- **OVERRIDING COMPOSES**: one request more goes over what is there. -/
theorem Settings.overridden_concat (settings : Settings) (requests : List SettingsRequest)
    (request : SettingsRequest) :
    settings.overridden (requests ++ [request]) = request.onto (settings.overridden requests) := by
  refine Settings.ext_value fun toggle => ?_
  rw [value_overridden, value_onto, value_overridden, lastValue?_concat]
  cases request.value? toggle <;> rfl

namespace Workspace

/-- The workspace after some requests, one after the other. -/
def afterRequests (workspace : Workspace) (requests : List SettingsRequest) : Workspace :=
  requests.foldl (fun now request => (request.job now).2) workspace

theorem afterRequests_concat (workspace : Workspace) (requests : List SettingsRequest)
    (request : SettingsRequest) : workspace.afterRequests (requests ++ [request])
      = (request.job (workspace.afterRequests requests)).2 := by
  rw [afterRequests, List.foldl_append]
  rfl

/-- **ONE REQUEST**: settings that are ready are answered, with the patch over them if there is
    one, and what is answered is ready for the next. -/
theorem Ready.request (h : workspace.Ready settings) (request : SettingsRequest) :
    ∃ after, request.job workspace = (.ok (request.onto settings), after)
      ∧ after.settingsPath = workspace.settingsPath ∧ after.Ready (request.onto settings) := by
  cases request with
  | load => exact ⟨workspace, h.run_load, rfl, h⟩
  | update patch =>
      obtain ⟨after, hupdate, hpath, -, hready⟩ := h.run_update patch
      exact ⟨after, hupdate, hpath, hready⟩

/-- **ALL REQUESTS**: by induction on those that were made before. -/
theorem Ready.requests (h : workspace.Ready settings) (requests : List SettingsRequest) :
    (workspace.afterRequests requests).settingsPath = workspace.settingsPath
      ∧ (workspace.afterRequests requests).Ready (settings.overridden requests) := by
  induction requests using List.reverseRecOn with
  | nil =>
      have hsame : settings.overridden [] = settings :=
        Settings.ext_value fun toggle => Settings.value_overridden settings [] toggle
      rw [hsame]
      exact ⟨rfl, h⟩
  | append_singleton requests request ih =>
      obtain ⟨after, hjob, hpath, hready⟩ := ih.2.request request
      rw [afterRequests_concat, hjob, Settings.overridden_concat]
      exact ⟨hpath.trans ih.1, hready⟩

/-- The file holds the settings since the last update. -/
theorem Ready.stored (h : workspace.Ready settings) (requests : List SettingsRequest)
    (hupdated : ∃ patch, .update patch ∈ requests) :
    Settings.Stored (workspace.afterRequests requests).files workspace.settingsPath
      (settings.overridden requests) := by
  induction requests using List.reverseRecOn with
  | nil =>
      obtain ⟨patch, hpatch⟩ := hupdated
      cases hpatch
  | append_singleton requests request ih =>
      obtain ⟨hpath, hready⟩ := h.requests requests
      rw [afterRequests_concat, Settings.overridden_concat]
      cases request with
      | load =>
          -- what is only loaded stays as it is
          have hbefore : ∃ patch, .update patch ∈ requests := by
            obtain ⟨patch, hpatch⟩ := hupdated
            rcases List.mem_append.mp hpatch with hold | hlast
            · exact ⟨patch, hold⟩
            · cases List.mem_singleton.mp hlast
          rw [SettingsRequest.job, hready.run_load]
          exact ih hbefore
      | update patch =>
          obtain ⟨after, hupdate, -, hstored, -⟩ := hready.run_update patch
          rw [SettingsRequest.job, hupdate, ← hpath]
          exact hstored

/-- **UPDATES OVERRIDE**: from a workspace where settings are ready, every load and every update
    of a run gives settings, in which each toggle has the value that it was given last, or else
    the one it had at first.  Since the first update the bytes of the file are those of the
    present settings, so that what it held before shows only in the settings loaded at first. -/
theorem updates_override (h : workspace.Ready settings) (requests : List SettingsRequest) :
    (∀ i request, requests[i]? = some request →
        ∃ answer, (request.job (workspace.afterRequests (requests.take i))).1 = .ok answer
          ∧ ∀ toggle, answer.value toggle
            = (lastValue? (requests.take (i + 1)) toggle).getD (settings.value toggle))
      ∧ ∀ i, (∃ patch, .update patch ∈ requests.take i) →
          ∃ present : Settings, (workspace.afterRequests (requests.take i)).files.read
              (Path.ofText workspace.settingsPath) = .ok (Text.toUtf8 present.text)
            ∧ ∀ toggle, present.value toggle
              = (lastValue? (requests.take i) toggle).getD (settings.value toggle) := by
  constructor
  · intro i request hrequest
    obtain ⟨after, hjob, -⟩ := (h.requests (requests.take i)).2.request request
    have htake : requests.take (i + 1) = requests.take i ++ [request] := by
      rw [List.take_add_one, hrequest]
      rfl
    refine ⟨settings.overridden (requests.take (i + 1)), ?_, fun toggle => ?_⟩
    · rw [hjob, htake, Settings.overridden_concat]
    · exact Settings.value_overridden settings _ toggle
  · intro i hupdated
    refine ⟨settings.overridden (requests.take i), (h.stored _ hupdated).read, fun toggle => ?_⟩
    exact Settings.value_overridden settings _ toggle

/-- A workspace with settings that were stored by something else. -/
def foreign : Workspace where
  files := Settings.kept (Text.toUtf8 Settings.partly)
  vaultPath := "vault".toList
  settingsPath := "settings.json".toList

theorem ready_foreign : foreign.Ready { includeLink := false } where
  files := ⟨by decide, by decide, Files.plain_nil _, rfl⟩
  load := by decide +kernel
  save := ⟨{}, by decide +kernel⟩

/-- One toggle is updated, and another one is as the foreign file had it. -/
theorem foreign_updated :
    foreign.Ready { includeLink := false }
      ∧ (Job.loadSettings (foreign.afterRequests [.update { includeCallout := some false }])).1
        = .ok { includeLink := false, includeCallout := false } := by
  refine ⟨ready_foreign, ?_⟩
  obtain ⟨answer, hanswer, hvalue⟩ := (updates_override ready_foreign
    [.update { includeCallout := some false }, .load]).1 1 .load rfl
  have hfound : answer = { includeLink := false, includeCallout := false } := by
    refine Settings.ext_value fun toggle => ?_
    rw [hvalue]
    cases toggle <;> rfl
  rw [← hfound]
  exact hanswer

end Workspace
end NoteDigest
