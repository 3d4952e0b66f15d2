import NoteDigest.Payload.Record

/-! # Toggles — settings, patches and payloads by name

    Settings, patches of settings and the payloads they are read from all have a value for
    each of the same four names.  Told by name, a patch goes over settings toggle by toggle
    (`value_apply`), and a payload is accepted if every member it has under one of the names
    is, whatever its other members are (`settings_eq_ok_iff`). -/

namespace NoteDigest

/-- One of the toggles. -/
inductive Toggle
  | link
  | callout
  | removeTags
  | children
  deriving Repr, DecidableEq

namespace Toggle

/-- The toggles in order. -/
def all : List Toggle :=
  [.link, .callout, .removeTags, .children]

/-- The name that a toggle is stored under. -/
def name : Toggle → String
  | .link => "include_link"
  | .callout => "include_callout"
  | .removeTags => "remove_tags"
  | .children => "include_children"

theorem mem_all (toggle : Toggle) : toggle ∈ all := by
  cases toggle <;> decide

theorem name_injective {toggle other : Toggle} (h : toggle.name = other.name) :
    toggle = other := by
  revert h
  cases toggle <;> cases other <;> decide

end Toggle

/-! ## Settings and patches -/

/-- The value of a toggle. -/
def Settings.value (settings : Settings) : Toggle → Bool
  | .link => settings.includeLink
  | .callout => settings.includeCallout
  | .removeTags => settings.removeTags
  | .children => settings.includeChildren

/-- The new value of a toggle, if it gets one. -/
def SettingsPatch.value? (patch : SettingsPatch) : Toggle → Option Bool
  | .link => patch.includeLink
  | .callout => patch.includeCallout
  | .removeTags => patch.removeTags
  | .children => patch.includeChildren

namespace Settings

variable {settings settings' : Settings}

/-- Settings are told apart by their toggles. -/
theorem ext_value (h : ∀ toggle, settings.value toggle = settings'.value toggle) :
    settings = settings' := by
  obtain ⟨a, b, c, d⟩ := settings
  obtain ⟨a', b', c', d'⟩ := settings'
  obtain rfl : a = a' := h .link
  obtain rfl : b = b' := h .callout
  obtain rfl : c = c' := h .removeTags
  obtain rfl : d = d' := h .children
  rfl

/-- **A PATCH GOES OVER SETTINGS** toggle by toggle. -/
theorem value_apply (settings : Settings) (patch : SettingsPatch) (toggle : Toggle) :
    (settings.apply patch).value toggle
      = (patch.value? toggle).getD (settings.value toggle) := by
  cases toggle <;> rfl

end Settings

/-! ## Payloads -/

namespace Payload

variable {α β : Type}

theorem Checked.both_eq_ok_iff {a : Checked α} {b : Checked β} {x : α} {y : β} :
    Checked.both a b = .ok (x, y) ↔ a = .ok x ∧ b = .ok y := by
  cases a <;> cases b <;> simp [Checked.both]

theorem Checked.inside_eq_ok_iff {step : Text} {a : Checked α} {x : α} :
    Checked.inside step a = .ok x ↔ a = .ok x := by
  cases a <;> simp [Checked.inside]

/-- A field with a default is what is given for it, if anything is. -/
theorem withDefault_eq_ok_iff {check : Json → Checked α} {fallback : α} {record : Json}
    {name : String} {x : α} :
    withDefault check fallback record name = .ok x
      ↔ (record.member? name).elim (fallback = x) (check · = .ok x) := by
  rw [withDefault]
  cases record.member? name with
  | none => exact ⟨Except.ok.inj, congrArg Except.ok⟩
  | some json => exact Checked.inside_eq_ok_iff

/-- **SETTINGS IN A PAYLOAD** have the value of every toggle that is given there, and the
    defaults of the others; nothing but these members is looked at. -/
theorem settings_eq_ok_iff {json : Json} {found : Settings} :
    settings json = .ok found ↔ ∀ toggle : Toggle,
      (json.member? toggle.name).elim (({} : Settings).value toggle = found.value toggle)
        (truth · = .ok (found.value toggle)) := by
  have hfields : settings json = .ok found ↔ Checked.both
      (withDefault truth true json "include_link") (Checked.both
        (withDefault truth true json "include_callout") (Checked.both
          (withDefault truth false json "remove_tags")
          (withDefault truth true json "include_children")))
        = .ok (found.includeLink, found.includeCallout, found.removeTags,
            found.includeChildren) := by
    rw [settings]
    obtain ⟨a, b, c, d⟩ := found
    generalize Checked.both (withDefault truth true json "include_link") _ = fields
    cases fields with
    | error issues => exact ⟨nofun, nofun⟩
    | ok fields =>
        obtain ⟨a', b', c', d'⟩ := fields
        constructor
        · intro h
          cases h
          rfl
        · intro h
          cases h
          rfl
  rw [hfields, Checked.both_eq_ok_iff, Checked.both_eq_ok_iff, Checked.both_eq_ok_iff,
    withDefault_eq_ok_iff, withDefault_eq_ok_iff, withDefault_eq_ok_iff, withDefault_eq_ok_iff]
  constructor
  · rintro ⟨hlink, hcallout, htags, hchildren⟩ toggle
    cases toggle with
    | link => exact hlink
    | callout => exact hcallout
    | removeTags => exact htags
    | children => exact hchildren
  · intro h
    exact ⟨h .link, h .callout, h .removeTags, h .children⟩

end Payload
end NoteDigest
