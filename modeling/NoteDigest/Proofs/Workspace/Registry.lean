import NoteDigest.Proofs.Vault.Containment
import NoteDigest.Proofs.Workspace.Session

/-! # The registry — which vault a root opens

    Vaults in use are kept by the places that their roots stood for when they were opened
    first.  A vault itself keeps the root it was opened by, as it was written, and follows it
    anew whenever it is asked for something.  So the vault at a place is the one that the
    first of all roots for this place names (`rootAt?_after`), and it stands at its place as
    long as that root does (`opened_root_is_first`).

    Two roots open one vault exactly when they stand for one place (`passOn_iff`).

    When the first root is a link that is made to lead elsewhere, a root that stands for the
    old place is still given the vault of the link, which is at the new place now
    (`relinked_root_elsewhere`). -/

namespace NoteDigest

open NoteDigest.Path Files

/-! ## Events -/

/-- Something that happens to a workspace: a step of a session, or a vault that is opened and
    not asked for anything. -/
inductive Event
  | step (step : Step)
  | opening (root : Option Text)

/-- The root that an event opens. -/
def Event.root? : Event → Option (Option Text)
  | .step (.edit _) => none
  | .step (.ask root _) => some root
  | .opening root => some root

namespace Workspace

variable {workspace : Workspace} {events : List Event} {event : Event} {root root' : Option Text}
  {place place' : Place} {text : Text}

/-- The workspace after an event. -/
def follow (workspace : Workspace) : Event → Workspace
  | .step step => workspace.step step
  | .opening root => (Job.openVault root workspace).2

/-- The workspace after some events. -/
def after (workspace : Workspace) (events : List Event) : Workspace :=
  events.foldl follow workspace

/-- The vault that a root opens. -/
def opened (workspace : Workspace) (root : Option Text) : Except Fault Vault :=
  match Job.openVault root workspace with
  | (.ok place, after) => .ok (after.vaultAt place [])
  | (.error fault, _) => .error fault

/-- The text of the root that an event opens, if it stands for a place. -/
def rootFor? (workspace : Workspace) (event : Event) (place : Place) : Option Text :=
  event.root?.bind fun root =>
    if workspace.placeOfRoot root = .ok place then some (workspace.rootText root) else none

/-- The text of the first root for a place that is opened by some events. -/
def firstRoot? (workspace : Workspace) : List Event → Place → Option Text
  | [], _ => none
  | event :: rest, place =>
      (workspace.rootFor? event place).or ((workspace.follow event).firstRoot? rest place)

/-! ## The first root -/

/-- The root of the vault in use at a place. -/
def rootAt? (workspace : Workspace) (place : Place) : Option Path :=
  (workspace.vaults.lookup place).map Vault.root

theorem rootAt?_putVault (workspace : Workspace) (place place' : Place) (vault : Vault) :
    (workspace.putVault place vault).rootAt? place'
      = if place' = place then some vault.root else workspace.rootAt? place' := by
  rw [rootAt?, rootAt?, lookup_putVault]
  split <;> rfl

/-- The root of the shared vault is that of the vault in use, if there is one. -/
theorem root_sharedVault (workspace : Workspace) (root : Option Text) (place : Place) :
    some (workspace.sharedVault root place).root
      = (workspace.rootAt? place).or (some (parse (workspace.rootText root))) := by
  rw [sharedVault, vaultAt, rootAt?]
  cases workspace.vaults.lookup place with
  | some vault => rfl
  | none => rfl

theorem rootAt?_openVault (workspace : Workspace) (root : Option Text) (place : Place) :
    (Job.openVault root workspace).2.rootAt? place
      = (workspace.rootAt? place).or ((workspace.rootFor? (.opening root) place).map parse) := by
  cases hplace : workspace.placeOfRoot root with
  | error fault =>
      rw [run_openVault_of_error hplace]
      simp [rootFor?, Event.root?, hplace]
  | ok found =>
      rw [run_openVault_of_ok hplace]
      show (workspace.putVault found _).rootAt? place = _
      rw [rootAt?_putVault]
      by_cases hsame : place = found
      · subst hsame
        rw [if_pos rfl, root_sharedVault]
        simp [rootFor?, Event.root?, hplace]
      · rw [if_neg hsame]
        simp [rootFor?, Event.root?, hplace, Ne.symm hsame]

/-- **ONE EVENT**: a vault in use keeps its root, and a new one takes the root it is opened
    by. -/
theorem rootAt?_follow (workspace : Workspace) (event : Event) (place : Place) :
    (workspace.follow event).rootAt? place
      = (workspace.rootAt? place).or ((workspace.rootFor? event place).map parse) := by
  cases event with
  | opening root => exact rootAt?_openVault workspace root place
  | step step =>
      cases step with
      | edit edit => exact (Option.or_none).symm
      | ask root request =>
          show (Job.ask root request workspace).2.rootAt? place = _
          rw [show workspace.rootFor? (.step (.ask root request)) place
            = workspace.rootFor? (.opening root) place from rfl, ← rootAt?_openVault]
          cases hplace : workspace.placeOfRoot root with
          | error fault => rw [run_ask_of_error hplace, run_openVault_of_error hplace]
          | ok found =>
              -- what is asked leaves the root of the vault as it is
              rw [run_ask_of_ok hplace, run_openVault_of_ok hplace]
              show (workspace.putVault found _).rootAt? place
                = (workspace.putVault found _).rootAt? place
              rw [rootAt?_putVault, rootAt?_putVault, Vault.root_ask]

/-- **ALL EVENTS**: the vault at a place has the root that was the first for the place. -/
theorem rootAt?_after (workspace : Workspace) (events : List Event) (place : Place) :
    (workspace.after events).rootAt? place
      = (workspace.rootAt? place).or ((workspace.firstRoot? events place).map parse) := by
  induction events generalizing workspace with
  | nil => exact (Option.or_none).symm
  | cons event rest ih =>
      show ((workspace.follow event).after rest).rootAt? place = _
      rw [ih, rootAt?_follow, firstRoot?, Option.or_assoc]
      cases workspace.rootFor? event place with
      | some text => rfl
      | none => rfl

/-- The vaults in use have roots that were given as text. -/
def AllWritten (workspace : Workspace) : Prop :=
  ∀ place vault, workspace.vaults.lookup place = some vault → vault.IsWritten

theorem allWritten_after (hvaults : workspace.vaults = []) (events : List Event) :
    (workspace.after events).AllWritten := by
  intro place vault hused
  have hroot := rootAt?_after workspace events place
  rw [rootAt?, hused, rootAt?, hvaults, Option.map_some] at hroot
  obtain ⟨text, -, htext⟩ := Option.map_eq_some_iff.mp hroot.symm
  exact ⟨text, htext.symm⟩

/-- The first root for a place did stand for it when it was opened. -/
theorem placeOf_of_firstRoot? (h : workspace.firstRoot? events place = some text) :
    ∃ i < events.length,
      (workspace.after (events.take i)).files.placeOf (parse text) = .ok place := by
  induction events generalizing workspace with
  | nil => cases h
  | cons event rest ih =>
      rw [firstRoot?] at h
      cases hroot : workspace.rootFor? event place with
      | some found =>
          obtain rfl : found = text := by
            rw [hroot] at h
            exact Option.some.inj h
          refine ⟨0, Nat.succ_pos _, ?_⟩
          obtain ⟨root, -, hopened⟩ := Option.bind_eq_some_iff.mp hroot
          split at hopened
          · rename_i hplace
            rw [← Option.some.inj hopened]
            exact hplace
          · cases hopened
      | none =>
          rw [hroot] at h
          obtain ⟨i, hi, hplace⟩ := ih h
          exact ⟨i + 1, Nat.succ_lt_succ hi, hplace⟩

theorem after_append (workspace : Workspace) (events : List Event) (event : Event) :
    workspace.after (events ++ [event]) = (workspace.after events).follow event := by
  rw [after, List.foldl_append]
  rfl

theorem opened_of_ok (h : workspace.placeOfRoot root = .ok place) :
    workspace.opened root = .ok (workspace.sharedVault root place) := by
  rw [opened, run_openVault_of_ok h]
  exact congrArg Except.ok (vaultAt_putVault workspace place _ [])

theorem opened_of_error {fault : Fault} (h : workspace.placeOfRoot root = .error fault) :
    workspace.opened root = .error fault := by
  rw [opened, run_openVault_of_error h]

/-- The root of the vault that is opened is that of the vault in use afterwards. -/
theorem root_sharedVault_eq (h : workspace.placeOfRoot root = .ok place) :
    some (workspace.sharedVault root place).root
      = (workspace.follow (.opening root)).rootAt? place := by
  show _ = (Job.openVault root workspace).2.rootAt? place
  rw [run_openVault_of_ok h]
  show _ = (workspace.putVault place _).rootAt? place
  rw [rootAt?_putVault, if_pos rfl]

end Workspace

/-! ## One vault for one place -/

/-- Leaves something with the vault that one root opens, and sees what is there in the vault
    that another root opens. -/
def Job.passOn (root root' : Option Text) (vault : Vault) : Job Vault := do
  let place ← openVault root
  let place' ← openVault root'
  useVault place fun _ _ => (.ok (), vault)
  useVault place' fun found _ => (.ok found, found)

namespace Workspace

variable {workspace : Workspace} {events : List Event} {root root' : Option Text}
  {place place' : Place}

theorem run_passOn (h : workspace.placeOfRoot root = .ok place)
    (h' : workspace.placeOfRoot root' = .ok place') (vault : Vault) :
    (Job.passOn root root' vault workspace).1
      = .ok (if place' = place then vault else workspace.sharedVault root' place') := by
  -- opening the first vault changes no place
  have hopened' : Job.openVault root' (workspace.putVault place (workspace.sharedVault root place))
      = (.ok place', _) := run_openVault_of_ok h'
  rw [Job.passOn, run_bind_of_ok (run_openVault_of_ok h), run_bind_of_ok hopened',
    run_bind_of_ok (Job.run_useVault place _ _), Job.run_useVault]
  show Except.ok (vaultAt (putVault _ place vault) place' []) = _
  rw [vaultAt, lookup_putVault]
  split
  · rfl
  · rename_i hother
    rw [lookup_putVault, if_pos rfl, sharedVault, vaultAt, lookup_putVault, if_neg hother]
    rfl

theorem run_passOn_of_error {fault : Fault} (h : workspace.placeOfRoot root = .error fault)
    (vault : Vault) : (Job.passOn root root' vault workspace).1 = .error fault := by
  rw [Job.passOn, run_bind_of_error (run_openVault_of_error h)]

theorem run_passOn_of_error' {fault : Fault} (h : workspace.placeOfRoot root = .ok place)
    (h' : workspace.placeOfRoot root' = .error fault) (vault : Vault) :
    (Job.passOn root root' vault workspace).1 = .error fault := by
  have hopened' : Job.openVault root' (workspace.putVault place (workspace.sharedVault root place))
      = (.error fault, _) := run_openVault_of_error h'
  rw [Job.passOn, run_bind_of_ok (run_openVault_of_ok h), run_bind_of_error hopened']

/-- **ONE VAULT** is opened by two roots exactly when they stand for one place: then whatever is
    left with the vault of one root is there in the vault of the other. -/
theorem passOn_iff :
    (∀ vault, (Job.passOn root root' vault workspace).1 = .ok vault)
      ↔ ∃ place, workspace.placeOfRoot root = .ok place
          ∧ workspace.placeOfRoot root' = .ok place := by
  constructor
  · intro hall
    cases h : workspace.placeOfRoot root with
    | error fault => cases (run_passOn_of_error h (.ofText [])).symm.trans (hall (.ofText []))
    | ok place =>
        cases h' : workspace.placeOfRoot root' with
        | error fault =>
            cases (run_passOn_of_error' h h' (.ofText [])).symm.trans (hall (.ofText []))
        | ok place' =>
            refine ⟨place, rfl, ?_⟩
            by_cases hsame : place' = place
            · rw [hsame]
            · -- the other vault would have to be two different ones
              have hfixed : ∀ vault, workspace.sharedVault root' place' = vault := by
                intro vault
                have hseen := hall vault
                rw [run_passOn h h', if_neg hsame] at hseen
                exact Except.ok.inj hseen
              have htwo : Vault.ofText [] = Vault.ofText ['/'] :=
                (hfixed _).symm.trans (hfixed _)
              exact absurd htwo (by decide)
  · rintro ⟨place, h, h'⟩ vault
    rw [run_passOn h h', if_pos rfl]

/-! ## Where shared vaults stand -/

/-- **THE VAULT THAT A ROOT OPENS** after any events is the one that the first root for its
    place named:

    * it is opened whenever the root stands for a place;
    * its root is the text of the first root for this place, which did stand for it then;
    * it stands at this place exactly if the first root still does;
    * two roots open one vault exactly when they stand for one place. -/
theorem opened_root_is_first (hvaults : workspace.vaults = []) (events : List Event) :
    (∀ root place, (workspace.after events).placeOfRoot root = .ok place →
        ∃ vault text, (workspace.after events).opened root = .ok vault
          ∧ workspace.firstRoot? (events ++ [.opening root]) place = some text
          ∧ vault.root = parse text
          ∧ (∃ i ≤ events.length,
              (workspace.after (events.take i)).files.placeOf (parse text) = .ok place)
          ∧ (vault.rootPlace (workspace.after events).files = .ok place
              ↔ (workspace.after events).files.placeOf (parse text) = .ok place))
      ∧ (∀ root fault, (workspace.after events).placeOfRoot root = .error fault →
          (workspace.after events).opened root = .error fault)
      ∧ ∀ root root',
          (∀ vault, (Job.passOn root root' vault (workspace.after events)).1 = .ok vault)
            ↔ ∃ place, (workspace.after events).placeOfRoot root = .ok place
                ∧ (workspace.after events).placeOfRoot root' = .ok place := by
  refine ⟨?_, fun root fault => opened_of_error, fun root root' => passOn_iff⟩
  intro root place hplace
  have hroot := root_sharedVault_eq hplace
  have hnone : workspace.rootAt? place = none := by
    rw [rootAt?, hvaults]
    rfl
  rw [← after_append, rootAt?_after, hnone, Option.none_or] at hroot
  obtain ⟨text, hfirst, htext⟩ := Option.map_eq_some_iff.mp hroot.symm
  refine ⟨_, text, opened_of_ok hplace, hfirst, htext.symm, ?_, ?_⟩
  · obtain ⟨i, hi, hstood⟩ := placeOf_of_firstRoot? hfirst
    rw [List.length_append] at hi
    have hle : i ≤ events.length := Nat.le_of_lt_succ hi
    rw [List.take_append_of_le_length hle] at hstood
    exact ⟨i, hle, hstood⟩
  · rw [Vault.rootPlace, htext]

/-- Two vaults, and a link to the first. -/
def shelves : Workspace where
  files := ⟨[(["v1".toList], .directory),
    (["v1".toList, "a.md".toList], .file (Text.toUtf8 "one".toList) (.clock 1)),
    (["v2".toList], .directory),
    (["v2".toList, "b.md".toList], .file (Text.toUtf8 "two".toList) (.clock 1)),
    (["link".toList], .link "v1".toList)], []⟩
  vaultPath := "vault".toList
  settingsPath := "settings.json".toList

/-- As long as the link leads to the first vault, what it opened is there for both roots. -/
theorem shelves_opened :
    ∃ vault, (shelves.after [.opening (some "link".toList)]).opened (some "v1".toList) = .ok vault
      ∧ vault.rootPlace (shelves.after [.opening (some "link".toList)]).files
        = .ok ["v1".toList] := by
  obtain ⟨hfirst, -, -⟩ := @opened_root_is_first shelves rfl [.opening (some "link".toList)]
  obtain ⟨vault, text, hopened, htext, -, -, hstands⟩ :=
    hfirst (some "v1".toList) ["v1".toList] (by decide +kernel)
  have hlink : shelves.firstRoot? ([.opening (some "link".toList)] ++ [.opening (some "v1".toList)])
      ["v1".toList] = some "link".toList := by decide +kernel
  obtain rfl : "link".toList = text := Option.some.inj (hlink.symm.trans htext)
  exact ⟨vault, hopened, hstands.mpr (by decide +kernel)⟩

/-- The first vault is opened by the link, and then the link is made to lead to the other. -/
def relinking : List Event :=
  [.opening (some "link".toList), .step (.edit (.delete "link".toList)),
   .step (.edit (.link "link".toList "v2".toList))]

/-- **ELSEWHERE**: the first vault is asked for, and the second one answers. -/
theorem relinked_root_elsewhere :
    shelves.vaults = []
      ∧ (shelves.after relinking).placeOfRoot (some "v1".toList) = .ok ["v1".toList]
      ∧ ∃ vault, (shelves.after relinking).opened (some "v1".toList) = .ok vault
        ∧ vault.rootPlace (shelves.after relinking).files = .ok ["v2".toList]
        ∧ vault.notes (shelves.after relinking).files = .ok [⟨"b.md".toList, ['b']⟩] := by
  refine ⟨rfl, by decide +kernel, .ofText "link".toList, by decide +kernel, by decide +kernel, ?_⟩
  exact Vault.notes_of_ascending rfl (by decide +kernel) (by decide +kernel)
    (show List.Pairwise _ _ from by decide)

end Workspace
end NoteDigest
