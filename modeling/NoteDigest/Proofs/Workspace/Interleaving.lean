import NoteDigest.Proofs.Workspace.Updating

/-! # Interleaving — two updates at the same time

    An update loads the stored settings and later saves them with its patch put over them.
    Nothing keeps another update from doing something in between, so two updates may take
    turns in any order (`Workspace.race`).  Seen from outside the race is one for a single
    register of settings (`Shows.run`), and its outcome depends on the turns alone
    (`race_outcome`):

    * if one update is over before the other one loads, both patches are kept;
    * otherwise both have loaded the same settings, and the one that saves last undoes what
      the other one has saved (`overlapping_loses`). -/

namespace NoteDigest

open Files

/-- One of two clients that update settings. -/
inductive Client
  | first
  | second
  deriving Repr, DecidableEq

/-- The other client. -/
def Client.other : Client → Client
  | .first => .second
  | .second => .first

/-- How far an update has come. -/
inductive Call
  | waiting
  /-- Settings have been loaded. -/
  | holding (settings : Settings)
  /-- Settings have been saved. -/
  | returned (settings : Settings)
  | failed (fault : Fault)
  deriving Repr, DecidableEq

/-- How far the updates of both clients have come. -/
abbrev Calls := Client → Call

/-- The updates with one of them changed. -/
def Calls.put (calls : Calls) (client : Client) (call : Call) : Calls :=
  fun any => if any = client then call else calls any

/-- Two updates on one workspace. -/
structure Race where
  workspace : Workspace
  calls : Calls

/-- A client takes its turn: it loads, or it saves what it has loaded with its patch. -/
def Race.turn (patch : Client → SettingsPatch) (race : Race) (client : Client) : Race :=
  match race.calls client with
  | .waiting =>
      match Job.loadSettings race.workspace with
      | (.ok settings, after) => ⟨after, race.calls.put client (.holding settings)⟩
      | (.error fault, after) => ⟨after, race.calls.put client (.failed fault)⟩
  | .holding settings =>
      match Job.saveSettings (settings.apply (patch client)) race.workspace with
      | (.ok (), after) =>
          ⟨after, race.calls.put client (.returned (settings.apply (patch client)))⟩
      | (.error fault, after) => ⟨after, race.calls.put client (.failed fault)⟩
  | .returned _ | .failed _ => race

/-- What comes of two updates when their clients take turns. -/
def Workspace.race (workspace : Workspace) (patch : Client → SettingsPatch)
    (turns : List Client) : Race :=
  turns.foldl (Race.turn patch) ⟨workspace, fun _ => .waiting⟩

variable {workspace after : Workspace} {patch : Client → SettingsPatch} {client : Client}
  {settings : Settings} {state : Race} {fault : Fault}

/-! ## Turns -/

theorem Calls.put_self (calls : Calls) (client : Client) (call : Call) :
    calls.put client call client = call :=
  if_pos rfl

theorem Calls.put_of_ne (calls : Calls) {any client : Client} (call : Call)
    (h : any ≠ client) : calls.put client call any = calls any :=
  if_neg h

namespace Race

theorem turn_load (hcall : state.calls client = .waiting)
    (h : Job.loadSettings state.workspace = (.ok settings, after)) :
    state.turn patch client = ⟨after, state.calls.put client (.holding settings)⟩ := by
  rw [turn, hcall]
  simp only [h]

theorem turn_load_fails (hcall : state.calls client = .waiting)
    (h : Job.loadSettings state.workspace = (.error fault, after)) :
    state.turn patch client = ⟨after, state.calls.put client (.failed fault)⟩ := by
  rw [turn, hcall]
  simp only [h]

theorem turn_save (hcall : state.calls client = .holding settings)
    (h : Job.saveSettings (settings.apply (patch client)) state.workspace = (.ok (), after)) :
    state.turn patch client
      = ⟨after, state.calls.put client (.returned (settings.apply (patch client)))⟩ := by
  rw [turn, hcall]
  simp only [h]

theorem turn_save_fails (hcall : state.calls client = .holding settings)
    (h : Job.saveSettings (settings.apply (patch client)) state.workspace
      = (.error fault, after)) :
    state.turn patch client = ⟨after, state.calls.put client (.failed fault)⟩ := by
  rw [turn, hcall]
  simp only [h]

theorem turn_returned (hcall : state.calls client = .returned settings) :
    state.turn patch client = state := by
  rw [turn, hcall]

theorem turn_failed (hcall : state.calls client = .failed fault) :
    state.turn patch client = state := by
  rw [turn, hcall]

/-- A turn changes nothing for the other client. -/
theorem calls_turn_of_ne {any : Client} (h : any ≠ client) :
    (state.turn patch client).calls any = state.calls any := by
  rw [turn]
  split
  · split <;> exact Calls.put_of_ne _ _ h
  · split <;> exact Calls.put_of_ne _ _ h
  · rfl
  · rfl

end Race

theorem Workspace.race_concat (workspace : Workspace) (patch : Client → SettingsPatch)
    (turns : List Client) (client : Client) :
    workspace.race patch (turns ++ [client]) = (workspace.race patch turns).turn patch client := by
  rw [race, List.foldl_append]
  rfl

/-- How far an update is that is over. -/
def Call.ofResult : Except Fault Settings → Call
  | .ok settings => .returned settings
  | .error fault => .failed fault

/-- **TWO TURNS IN A ROW** are an update. -/
theorem Workspace.race_alone (workspace : Workspace) (patch : Client → SettingsPatch)
    (client : Client) :
    (workspace.race patch [client, client]).workspace
        = (Job.updateSettings (patch client) workspace).2
      ∧ (workspace.race patch [client, client]).calls client
        = Call.ofResult (Job.updateSettings (patch client) workspace).1 := by
  have hturns : workspace.race patch [client, client]
      = (Race.turn patch ⟨workspace, fun _ => .waiting⟩ client).turn patch client := rfl
  have hput := fun call => Calls.put_self (fun _ => Call.waiting) client call
  rcases hload : Job.loadSettings workspace with ⟨fault | settings, middle⟩
  · have hfirst : Race.turn patch ⟨workspace, fun _ => .waiting⟩ client = _ :=
      Race.turn_load_fails rfl hload
    rw [hturns, hfirst, Job.updateSettings, run_bind_of_error hload,
      Race.turn_failed (hput (.failed fault))]
    exact ⟨rfl, hput (.failed fault)⟩
  · have hfirst : Race.turn patch ⟨workspace, fun _ => .waiting⟩ client = _ :=
      Race.turn_load rfl hload
    rw [hturns, hfirst, Job.updateSettings, run_bind_of_ok hload]
    rcases hsave : Job.saveSettings (settings.apply (patch client)) middle with ⟨fault | _, after⟩
    · rw [Race.turn_save_fails (hput _) hsave, run_bind_of_error hsave]
      exact ⟨rfl, Calls.put_self _ client _⟩
    · rw [Race.turn_save (hput _) hsave, run_bind_of_ok hsave]
      exact ⟨rfl, Calls.put_self _ client _⟩

/-! ## The race for a register -/

/-- One register of settings, and how far the updates of both clients have come. -/
structure Register where
  settings : Settings
  calls : Calls

/-- A client takes its turn at a register, where nothing fails. -/
def Register.turn (patch : Client → SettingsPatch) (register : Register) (client : Client) :
    Register :=
  match register.calls client with
  | .waiting => ⟨register.settings, register.calls.put client (.holding register.settings)⟩
  | .holding settings =>
      ⟨settings.apply (patch client),
       register.calls.put client (.returned (settings.apply (patch client)))⟩
  | .returned _ | .failed _ => register

/-- What comes of two updates at a register. -/
def Settings.race (settings : Settings) (patch : Client → SettingsPatch) (turns : List Client) :
    Register :=
  turns.foldl (Register.turn patch) ⟨settings, fun _ => .waiting⟩

/-- **A WORKSPACE SHOWS A REGISTER**: what the register holds is ready, and the updates have
    come as far. -/
structure Shows (state : Race) (register : Register) : Prop where
  ready : state.workspace.Ready register.settings
  calls : state.calls = register.calls

namespace Shows

variable {register : Register}

/-- **ONE TURN** goes as at the register. -/
theorem turn (h : Shows state register) (client : Client) :
    Shows (state.turn patch client) (register.turn patch client) := by
  rw [Register.turn, ← h.calls]
  cases hcall : state.calls client with
  | waiting =>
      rw [Race.turn_load hcall h.ready.run_load]
      exact ⟨h.ready, rfl⟩
  | holding settings =>
      obtain ⟨after, hsave⟩ := h.ready.exists_save (settings.apply (patch client))
      rw [Race.turn_save hcall hsave]
      exact ⟨(Workspace.ready_of_save h.ready.files hsave).2.2, rfl⟩
  | returned settings =>
      rw [Race.turn_returned hcall]
      exact h
  | failed fault =>
      rw [Race.turn_failed hcall]
      exact h

/-- **ALL TURNS** go as at the register: by induction on the turns, from any state of the
    race. -/
theorem run (h : Shows state register) (turns : List Client) :
    Shows (turns.foldl (Race.turn patch) state) (turns.foldl (Register.turn patch) register) := by
  induction turns generalizing state register with
  | nil => exact h
  | cons client rest ih => exact ih (h.turn client)

end Shows

theorem shows_race (h : workspace.Ready settings) (patch : Client → SettingsPatch)
    (turns : List Client) : Shows (workspace.race patch turns) (settings.race patch turns) := by
  have hstart : Shows ⟨workspace, fun _ => .waiting⟩ ⟨settings, fun _ => .waiting⟩ := ⟨h, rfl⟩
  exact hstart.run turns

/-! ## Where both updates return -/

/-- **BEGINNINGS**: some update has failed, or nothing has been saved yet and what is held was
    loaded in the workspace as it still is, or settings were ready there. -/
inductive Begun (workspace : Workspace) (state : Race) : Prop
  | failed (client : Client) (fault : Fault) : state.calls client = .failed fault →
      Begun workspace state
  | loading : state.workspace = workspace →
      (∀ client settings, state.calls client ≠ .returned settings) →
      (∀ client settings, state.calls client = .holding settings →
        Job.loadSettings workspace = (.ok settings, workspace)) → Begun workspace state
  | ready {settings : Settings} : workspace.Ready settings → Begun workspace state

/-- **ONE TURN** of a beginning: when the first settings are saved, they were loaded in the
    workspace as it was, and could be saved there. -/
theorem Begun.turn (hfs : workspace.files.WellFormed) (h : Begun workspace state)
    (client : Client) : Begun workspace (state.turn patch client) := by
  cases h with
  | failed unlucky fault hfailed =>
      refine .failed unlucky fault ?_
      by_cases hsame : unlucky = client
      · rw [Race.turn_failed (hsame ▸ hfailed), hfailed]
      · rw [Race.calls_turn_of_ne hsame, hfailed]
  | loading hstill hnone hheld =>
      cases hcall : state.calls client with
      | waiting =>
          rcases hload : Job.loadSettings state.workspace with ⟨fault | settings, after⟩
          · rw [Race.turn_load_fails hcall hload]
            exact .failed client fault (Calls.put_self _ client _)
          · obtain rfl : state.workspace = after :=
              congrArg Prod.snd ((Job.run_loadSettings _).symm.trans hload)
            rw [hstill] at hload
            rw [Race.turn_load hcall (hstill ▸ hload)]
            refine .loading hstill (fun any found hfound => ?_) (fun any found hfound => ?_)
            · have hcalls : (if any = client then Call.holding settings else state.calls any)
                  = .returned found := hfound
              split at hcalls
              · cases hcalls
              · exact hnone any found hcalls
            · have hcalls : (if any = client then Call.holding settings else state.calls any)
                  = .holding found := hfound
              split at hcalls
              · rw [← Call.holding.inj hcalls]
                exact hload
              · exact hheld any found hcalls
      | holding settings =>
          rcases hsave : Job.saveSettings (settings.apply (patch client)) state.workspace with
            ⟨fault | _, after⟩
          · rw [Race.turn_save_fails hcall hsave]
            exact .failed client fault (Calls.put_self _ client _)
          · have hload := (Job.run_loadSettings workspace).symm.trans (hheld client settings hcall)
            have hready : workspace.Ready settings :=
              ⟨hfs, congrArg Prod.fst hload, _, by rw [← hstill, hsave]⟩
            exact .ready hready
      | returned settings => exact absurd hcall (hnone client settings)
      | failed fault =>
          rw [Race.turn_failed hcall]
          exact .failed client fault hcall
  | ready hready => exact .ready hready

/-- **BOTH RETURN** only if settings were ready at first: by induction on the turns. -/
theorem ready_of_returned (hfs : workspace.files.WellFormed) (turns : List Client)
    (h : ∀ client, ∃ found, (workspace.race patch turns).calls client = .returned found) :
    ∃ settings, workspace.Ready settings := by
  have hbegun : Begun workspace (workspace.race patch turns) := by
    clear h
    induction turns using List.reverseRecOn with
    | nil => exact .loading rfl (fun _ _ => nofun) (fun _ _ => nofun)
    | append_singleton turns client ih =>
        rw [Workspace.race_concat]
        exact ih.turn hfs client
  cases hbegun with
  | failed client fault hfailed =>
      obtain ⟨found, hfound⟩ := h client
      cases hfailed.symm.trans hfound
  | loading _ hnone _ =>
      obtain ⟨found, hfound⟩ := h .first
      exact absurd hfound (hnone .first found)
  | ready hready => exact ⟨_, hready⟩

/-! ## Interleavings -/

/-- Each client has two turns. -/
def IsInterleaving (turns : List Client) : Prop :=
  ∀ client, turns.count client = 2

theorem length_eq_count (turns : List Client) :
    turns.length = turns.count .first + turns.count .second := by
  induction turns with
  | nil => rfl
  | cons client rest ih =>
      rw [List.length_cons, List.count_cons, List.count_cons, ih]
      cases client
      · show _ = _ + 1 + (_ + 0)
        omega
      · show _ = _ + 0 + (_ + 1)
        omega

/-- **INTERLEAVINGS**: one client begins, and has its second turn at once, or after the first or
    after both of the other's turns. -/
theorem IsInterleaving.cases {turns : List Client} (h : IsInterleaving turns) :
    ∃ client : Client, turns = [client, client, client.other, client.other]
      ∨ turns = [client, client.other, client, client.other]
      ∨ turns = [client, client.other, client.other, client] := by
  have hlength : turns.length = 4 := by
    rw [length_eq_count, h .first, h .second]
  obtain ⟨a, b, c, d, rfl⟩ : ∃ a b c d, turns = [a, b, c, d] := by
    match turns, hlength with
    | [a, b, c, d], _ => exact ⟨a, b, c, d, rfl⟩
  refine ⟨a, ?_⟩
  have hfirst := h .first
  revert hfirst
  cases a <;> cases b <;> cases c <;> cases d <;> decide

theorem Client.other_ne (client : Client) : client ≠ client.other := by
  cases client <;> decide

/-- An update that is over before the other one loads has the first two turns. -/
theorem IsInterleaving.eq_of_begins {turns : List Client} (h : IsInterleaving turns)
    (hbegins : [client, client] <+: turns) :
    turns = [client, client, client.other, client.other] := by
  obtain ⟨rest, hrest⟩ := hbegins
  obtain ⟨leader, rfl | rfl | rfl⟩ := h.cases
  · obtain rfl := (List.cons.inj hrest).1
    rfl
  · obtain ⟨rfl, htail⟩ := List.cons.inj hrest
    exact absurd (List.cons.inj htail).1 client.other_ne
  · obtain ⟨rfl, htail⟩ := List.cons.inj hrest
    exact absurd (List.cons.inj htail).1 client.other_ne

namespace Settings

/-- One update after the other. -/
theorem race_serial (settings : Settings) (patch : Client → SettingsPatch) (client : Client) :
    (settings.race patch [client, client, client.other, client.other]).settings
      = (settings.apply (patch client)).apply (patch client.other) := by
  cases client <;> rfl

/-- The other client saves last what it has loaded in between. -/
theorem race_crossing (settings : Settings) (patch : Client → SettingsPatch) (client : Client) :
    (settings.race patch [client, client.other, client, client.other]).settings
      = settings.apply (patch client.other) := by
  cases client <;> rfl

/-- The client saves last what it has loaded first. -/
theorem race_enclosing (settings : Settings) (patch : Client → SettingsPatch)
    (client : Client) :
    (settings.race patch [client, client.other, client.other, client]).settings
      = settings.apply (patch client) := by
  cases client <;> rfl

/-- **PATCHES OF DIFFERENT TOGGLES** are both kept when one goes over the other. -/
theorem value_apply_apply (settings : Settings)
    (hdisjoint : ∀ toggle, (patch .first).value? toggle = none
      ∨ (patch .second).value? toggle = none)
    (client any : Client) {toggle : Toggle} {value : Bool}
    (hvalue : (patch any).value? toggle = some value) :
    ((settings.apply (patch client)).apply (patch client.other)).value toggle = value := by
  rw [value_apply, value_apply]
  by_cases hany : any = client.other
  · rw [← hany, hvalue]
    rfl
  · obtain rfl : any = client := by
      revert hany
      cases any <;> cases client <;> decide
    have hnone : (patch any.other).value? toggle = none := by
      cases any with
      | first => exact (hdisjoint toggle).resolve_left (by rw [hvalue]; exact nofun)
      | second => exact (hdisjoint toggle).resolve_right (by rw [hvalue]; exact nofun)
    rw [hnone, hvalue]
    rfl

end Settings

namespace Workspace

/-- **THE OUTCOME OF A RACE** of two updates of different toggles that both return, whatever the
    settings file held before: an update that is over before the other one loads is kept with
    it; otherwise what was loaded at first is stored with the patch that was saved last. -/
theorem race_outcome (hfs : workspace.files.WellFormed)
    (hdisjoint : ∀ toggle, (patch .first).value? toggle = none
      ∨ (patch .second).value? toggle = none)
    {turns : List Client} (hturns : IsInterleaving turns)
    (hreturned : ∀ client, ∃ found,
      (workspace.race patch turns).calls client = .returned found) :
    ∃ before stored, (Job.loadSettings workspace).1 = .ok before
      ∧ (Job.loadSettings (workspace.race patch turns).workspace).1 = .ok stored
      ∧ (∀ client, [client, client] <+: turns →
          stored = (before.apply (patch client)).apply (patch client.other)
            ∧ ∀ any toggle value, (patch any).value? toggle = some value →
              stored.value toggle = value)
      ∧ ((∀ client, ¬ [client, client] <+: turns) →
          ∃ last, turns.getLast? = some last ∧ stored = before.apply (patch last)) := by
  obtain ⟨before, hready⟩ := ready_of_returned hfs turns hreturned
  have hshows := shows_race hready patch turns
  refine ⟨before, (before.race patch turns).settings, ?_, ?_, ?_, ?_⟩
  · rw [hready.run_load]
  · rw [hshows.ready.run_load]
  · intro client hbegins
    rw [hturns.eq_of_begins hbegins, Settings.race_serial]
    exact ⟨rfl, fun any toggle value => before.value_apply_apply hdisjoint client any⟩
  · intro hoverlap
    obtain ⟨client, rfl | rfl | rfl⟩ := hturns.cases
    · exact absurd ⟨_, rfl⟩ (hoverlap client)
    · exact ⟨client.other, rfl, before.race_crossing patch client⟩
    · exact ⟨client, rfl, before.race_enclosing patch client⟩

/-- A workspace where nothing has been stored. -/
def bare : Workspace where
  files := ⟨[], []⟩
  vaultPath := "vault".toList
  settingsPath := "settings.json".toList

/-- One client turns off links, the other one callouts. -/
def halves : Client → SettingsPatch
  | .first => { includeLink := some false }
  | .second => { includeCallout := some false }

/-- **ONE AFTER THE OTHER**, both updates are kept. -/
theorem serial_keeps :
    bare.files.WellFormed
      ∧ (∀ toggle, (halves .first).value? toggle = none ∨ (halves .second).value? toggle = none)
      ∧ IsInterleaving [.first, .first, .second, .second]
      ∧ (∀ client, ∃ found,
          (bare.race halves [.first, .first, .second, .second]).calls client = .returned found)
      ∧ (Job.loadSettings (bare.race halves [.first, .first, .second, .second]).workspace).1
        = .ok { includeLink := false, includeCallout := false } := by
  have hfs : bare.files.WellFormed := ⟨nofun, nofun, plain_nil _, rfl⟩
  have hdisjoint : ∀ toggle,
      (halves .first).value? toggle = none ∨ (halves .second).value? toggle = none := by
    intro toggle
    cases toggle <;> decide
  have hturns : IsInterleaving [.first, .first, .second, .second] := by
    intro client
    cases client <;> rfl
  have hreturned : ∀ client, ∃ found,
      (bare.race halves [.first, .first, .second, .second]).calls client = .returned found := by
    intro client
    cases client with
    | first => exact ⟨{ includeLink := false }, by decide +kernel⟩
    | second => exact ⟨{ includeLink := false, includeCallout := false }, by decide +kernel⟩
  refine ⟨hfs, hdisjoint, hturns, hreturned, ?_⟩
  obtain ⟨before, stored, hbefore, hstored, hserial, -⟩ :=
    race_outcome hfs hdisjoint hturns hreturned
  obtain rfl : before = {} := by
    have hdefaults : (Job.loadSettings bare).1 = .ok {} := by decide +kernel
    exact Except.ok.inj (hbefore.symm.trans hdefaults)
  rw [hstored, (hserial .first ⟨_, rfl⟩).1]
  rfl

/-- **OVERLAPPING UPDATES LOSE**: both load before either saves, and both return, but the toggle
    that the first client has turned off is on again. -/
theorem overlapping_loses :
    IsInterleaving [.first, .second, .first, .second]
      ∧ (∀ toggle, (halves .first).value? toggle = none ∨ (halves .second).value? toggle = none)
      ∧ (bare.race halves [.first, .second, .first, .second]).calls .first
        = .returned { includeLink := false }
      ∧ (bare.race halves [.first, .second, .first, .second]).calls .second
        = .returned { includeCallout := false }
      ∧ (halves .first).value? .link = some false
      ∧ (Job.loadSettings (bare.race halves [.first, .second, .first, .second]).workspace).1
        = .ok { includeLink := true, includeCallout := false } := by
  refine ⟨fun client => ?_, fun toggle => ?_, ?_, ?_, rfl, ?_⟩
  · cases client <;> rfl
  · cases toggle <;> decide
  · decide +kernel
  · decide +kernel
  · decide +kernel

end Workspace
end NoteDigest
