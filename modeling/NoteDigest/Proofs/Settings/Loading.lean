import NoteDigest.Proofs.Json.Reading
import NoteDigest.Proofs.Settings.Toggles
import NoteDigest.Settings.Store

/-! # Loading — which settings a file keeps

    A file keeps settings if it is the text of an object whose members under the names of
    toggles can all be taken for truth values; it may have others.  Then every toggle is as
    it is kept, or else has its default.  In every other case all toggles have their
    defaults, with three exceptions that are faults (`load_overlays_or_defaults`): bytes that
    are no text, an integer that is too long, and values too deep in one another.  That the
    first of them is no fallback is `bad_bytes_fail`. -/

namespace NoteDigest.Settings

variable {fs : Files} {path : Text} {bytes : ByteArray} {stored : Text}
  {members : List (Text × Json)} {settings : Settings} {fault : Fault}

/-! ## Members -/

/-- What members have under the names of toggles can be taken for truth values. -/
def Accepts (members : List (Text × Json)) : Prop :=
  ∀ (toggle : Toggle) json, members.lookup toggle.name.toList = some json →
    ∃ value, Payload.truth json = .ok value

/-- Every toggle is as the members have it, or else has its default. -/
def Overlays (members : List (Text × Json)) (settings : Settings) : Prop :=
  ∀ toggle : Toggle, (members.lookup toggle.name.toList).elim
    (({} : Settings).value toggle = settings.value toggle)
    (Payload.truth · = .ok (settings.value toggle))

theorem overlays_iff : Overlays members settings
    ↔ Payload.settings (.object members) = .ok settings := by
  rw [Payload.settings_eq_ok_iff]
  rfl

theorem Overlays.accepts (h : Overlays members settings) : Accepts members := by
  intro toggle json hjson
  have htoggle := h toggle
  rw [hjson] at htoggle
  exact ⟨_, htoggle⟩

/-- Settings with given values. -/
def ofValues (value : Toggle → Bool) : Settings :=
  ⟨value .link, value .callout, value .removeTags, value .children⟩

theorem value_ofValues (value : Toggle → Bool) (toggle : Toggle) :
    (ofValues value).value toggle = value toggle := by
  cases toggle <;> rfl

/-- **MEMBERS THAT ARE ACCEPTED** go over the defaults. -/
theorem exists_overlays (h : Accepts members) : ∃ settings, Overlays members settings := by
  have hvalue : ∀ toggle : Toggle, ∃ value, (members.lookup toggle.name.toList).elim
      (({} : Settings).value toggle = value) (Payload.truth · = .ok value) := by
    intro toggle
    cases hjson : members.lookup toggle.name.toList with
    | none => exact ⟨_, rfl⟩
    | some json => exact h toggle json hjson
  choose value hvalue using hvalue
  refine ⟨ofValues value, fun toggle => ?_⟩
  rw [value_ofValues]
  exact hvalue toggle

/-! ## What a value in JSON gives -/

theorem ofJson_of_overlays (h : Overlays members settings) :
    ofJson (.object members) = settings := by
  rw [ofJson, overlays_iff.mp h]
  rfl

/-- One member that is not accepted spoils all. -/
theorem ofJson_of_not_accepts (h : ¬ Accepts members) : ofJson (.object members) = {} := by
  rw [ofJson]
  cases hfound : Payload.settings (.object members) with
  | error issues => rfl
  | ok settings => exact absurd (overlays_iff.mpr hfound).accepts h

/-- A value that is no object has no members, so there is nothing to put over the defaults. -/
theorem ofJson_of_no_object {json : Json} (h : ∀ members, json ≠ .object members) :
    ofJson json = {} := by
  have hnone : ∀ name, json.member? name = none := by
    intro name
    cases json with
    | object members => exact absurd rfl (h members)
    | _ => rfl
  have hdefaults : Payload.settings json = .ok {} := by
    refine Payload.settings_eq_ok_iff.mpr fun toggle => ?_
    rw [hnone]
    rfl
  rw [ofJson, hdefaults]
  rfl

/-! ## What bytes give -/

/-- The bytes are the text of an object. -/
def KeepsObject (bytes : ByteArray) (members : List (Text × Json)) : Prop :=
  ∃ stored, Text.ofUtf8? bytes = some stored ∧ Json.parse stored = .ok (.object members)

/-- The bytes are no JSON, in a way that is not forgiven. -/
inductive Spoils (bytes : ByteArray) : Fault → Prop
  | badBytes : Text.ofUtf8? bytes = none → Spoils bytes .badBytes
  | integerTooLong {stored : Text} : Text.ofUtf8? bytes = some stored →
      Json.parse stored = .error .integerTooLong → Spoils bytes .integerTooLong
  | tooDeep {stored : Text} : Text.ofUtf8? bytes = some stored →
      Json.parse stored = .error .tooDeep → Spoils bytes .tooDeep

theorem ofBytes_of_parse {json : Json} (hstored : Text.ofUtf8? bytes = some stored)
    (hparse : Json.parse stored = .ok json) : ofBytes bytes = .ok (ofJson json) := by
  rw [ofBytes, hstored]
  simp only [hparse]

/-- **BYTES FAIL** in the three ways that are not forgiven, and in no other. -/
theorem ofBytes_eq_error_iff : ofBytes bytes = .error fault ↔ Spoils bytes fault := by
  rw [ofBytes]
  constructor
  · intro h
    split at h
    · rename_i hnone
      obtain rfl := Except.error.inj h
      exact .badBytes hnone
    · rename_i stored hstored
      split at h
      · cases h
      · cases h
      · rename_i hparse
        obtain rfl := Except.error.inj h
        exact .integerTooLong hstored hparse
      · rename_i hparse
        obtain rfl := Except.error.inj h
        exact .tooDeep hstored hparse
  · intro h
    cases h with
    | badBytes hnone => rw [hnone]
    | integerTooLong hstored hparse => simp only [hstored, hparse]
    | tooDeep hstored hparse => simp only [hstored, hparse]

/-- **BYTES THAT KEEP SETTINGS** give them. -/
theorem ofBytes_of_accepts (hkeeps : KeepsObject bytes members) (h : Accepts members) :
    ∃ settings, ofBytes bytes = .ok settings ∧ Overlays members settings := by
  obtain ⟨stored, hstored, hparse⟩ := hkeeps
  obtain ⟨settings, hsettings⟩ := exists_overlays h
  refine ⟨settings, ?_, hsettings⟩
  rw [ofBytes_of_parse hstored hparse, ofJson_of_overlays hsettings]

/-- **BYTES THAT KEEP NO SETTINGS** give the defaults, if they give anything. -/
theorem ofBytes_of_keeps_none (h : ∀ members, KeepsObject bytes members → ¬ Accepts members)
    (hfound : ofBytes bytes = .ok settings) : settings = {} := by
  rw [ofBytes] at hfound
  split at hfound
  · cases hfound
  · rename_i stored hstored
    split at hfound
    · rename_i json hparse
      rw [← Except.ok.inj hfound]
      by_cases hobject : ∃ members, json = .object members
      · obtain ⟨members, rfl⟩ := hobject
        exact ofJson_of_not_accepts (h members ⟨stored, hstored, hparse⟩)
      · exact ofJson_of_no_object (not_exists.mp hobject)
    · exact (Except.ok.inj hfound).symm
    · cases hfound
    · cases hfound

/-- A text with no integer that is too long, and with few lists and objects, spoils nothing. -/
theorem not_spoils (hstored : Text.ofUtf8? bytes = some stored)
    (hlong : ¬ Json.HasLongInteger stored) (hdeep : Json.openings stored ≤ Json.maxDepth) :
    ¬ Spoils bytes fault := by
  intro h
  cases h with
  | badBytes hnone => cases hnone.symm.trans hstored
  | integerTooLong hother hparse =>
      obtain rfl := Option.some.inj (hother.symm.trans hstored)
      exact hlong (Json.accounts_of_parse hparse)
  | tooDeep hother hparse =>
      obtain rfl := Option.some.inj (hother.symm.trans hstored)
      exact absurd hdeep (Nat.not_le.mpr (Json.accounts_of_parse hparse))

/-! ## What a file gives -/

theorem load_of_read (h : fs.read (Path.ofText path) = .ok bytes) :
    load fs path = ofBytes bytes := by
  rw [load, h]

theorem load_of_unreadable {cause : FileFault}
    (h : fs.read (Path.ofText path) = .error cause) : load fs path = .ok {} := by
  rw [load, h]

theorem load_eq_error_iff : load fs path = .error fault
    ↔ ∃ bytes, fs.read (Path.ofText path) = .ok bytes ∧ Spoils bytes fault := by
  cases hread : fs.read (Path.ofText path) with
  | error cause =>
      rw [load_of_unreadable hread]
      exact ⟨nofun, nofun⟩
  | ok bytes =>
      rw [load_of_read hread, ofBytes_eq_error_iff]
      constructor
      · exact fun h => ⟨bytes, rfl, h⟩
      · rintro ⟨_, hbytes, h⟩
        rwa [Except.ok.inj hbytes]

/-- **LOADING SETTINGS**, whatever the file holds and also when there is none:

    * a file that keeps settings gives them, over the defaults;
    * loading fails only on bytes that spoil the settings;
    * a text without an integer that is too long and with few lists and objects does not fail;
    * everything else, also what is no file, gives the defaults of all settings. -/
theorem load_overlays_or_defaults (fs : Files) (path : Text) :
    (∀ bytes members, fs.read (Path.ofText path) = .ok bytes → KeepsObject bytes members →
        Accepts members → ∃ settings, load fs path = .ok settings ∧ Overlays members settings)
      ∧ (∀ fault, load fs path = .error fault
          ↔ ∃ bytes, fs.read (Path.ofText path) = .ok bytes ∧ Spoils bytes fault)
      ∧ (∀ bytes stored, fs.read (Path.ofText path) = .ok bytes →
          Text.ofUtf8? bytes = some stored → ¬ Json.HasLongInteger stored →
          Json.openings stored ≤ Json.maxDepth → ∃ settings, load fs path = .ok settings)
      ∧ ((∀ bytes, fs.read (Path.ofText path) = .ok bytes →
            (∀ members, KeepsObject bytes members → ¬ Accepts members)
              ∧ ∀ fault, ¬ Spoils bytes fault) →
          load fs path = .ok {}) := by
  refine ⟨?_, fun fault => load_eq_error_iff, ?_, ?_⟩
  · intro bytes members hread hkeeps haccepts
    rw [load_of_read hread]
    exact ofBytes_of_accepts hkeeps haccepts
  · intro bytes stored hread hstored hlong hdeep
    rw [load_of_read hread]
    cases hfound : ofBytes bytes with
    | ok settings => exact ⟨settings, rfl⟩
    | error fault =>
        exact absurd (ofBytes_eq_error_iff.mp hfound) (not_spoils hstored hlong hdeep)
  · intro h
    cases hread : fs.read (Path.ofText path) with
    | error cause => exact load_of_unreadable hread
    | ok bytes =>
        obtain ⟨hkeeps, hspoils⟩ := h bytes hread
        rw [load_of_read hread]
        cases hfound : ofBytes bytes with
        | error fault => exact absurd (ofBytes_eq_error_iff.mp hfound) (hspoils fault)
        | ok settings => rw [ofBytes_of_keeps_none hkeeps hfound]

/-- A tree with one file at the top, which bears the usual name of a settings file. -/
def kept (bytes : ByteArray) : Files :=
  ⟨[(["settings.json".toList], .file bytes (.clock 1))], []⟩

/-- A file that has a word for one toggle and a member of another name. -/
def partly : Text :=
  "\x7b\"include_link\": \"off\", \"unknown\": 1\x7d".toList

/-- The word is taken for the toggle, and all else is as usual. -/
theorem partly_overlays :
    (kept (Text.toUtf8 partly)).read (Path.ofText "settings.json".toList)
        = .ok (Text.toUtf8 partly)
      ∧ (∃ members, KeepsObject (Text.toUtf8 partly) members ∧ Accepts members)
      ∧ load (kept (Text.toUtf8 partly)) "settings.json".toList
          = .ok { includeLink := false } := by
  have hread : (kept (Text.toUtf8 partly)).read (Path.ofText "settings.json".toList)
      = .ok (Text.toUtf8 partly) := by decide +kernel
  have hgiven : (Json.parse partly).map ofJson = .ok { includeLink := false } := by
    decide +kernel
  cases hparse : Json.parse partly with
  | error cause => rw [hparse] at hgiven; cases hgiven
  | ok json =>
      rw [hparse] at hgiven
      have hjson : ofJson json = { includeLink := false } := Except.ok.inj hgiven
      have hne : ({} : Settings) ≠ { includeLink := false } := by decide
      -- anything but an object with members that are accepted would give the defaults
      obtain ⟨members, rfl⟩ : ∃ members, json = .object members := by
        by_contra hnone
        exact hne ((ofJson_of_no_object (not_exists.mp hnone)).symm.trans hjson)
      have haccepts : Accepts members := by
        by_contra hnot
        exact hne ((ofJson_of_not_accepts hnot).symm.trans hjson)
      have hkeeps : KeepsObject (Text.toUtf8 partly) members :=
        ⟨partly, Text.ofUtf8?_toUtf8 partly, hparse⟩
      obtain ⟨settings, hload, hsettings⟩ :=
        (load_overlays_or_defaults (kept (Text.toUtf8 partly)) "settings.json".toList).1 _ _
          hread hkeeps haccepts
      refine ⟨hread, ⟨members, hkeeps, haccepts⟩, ?_⟩
      rw [hload, ← ofJson_of_overlays hsettings, hjson]

/-- **BYTES THAT ARE NO TEXT** do not fall back to the defaults: loading fails. -/
theorem bad_bytes_fail :
    (kept ⟨#[0xFF]⟩).read (Path.ofText "settings.json".toList) = .ok ⟨#[0xFF]⟩
      ∧ load (kept ⟨#[0xFF]⟩) "settings.json".toList = .error .badBytes := by
  constructor
  · decide +kernel
  · decide +kernel

end NoteDigest.Settings
