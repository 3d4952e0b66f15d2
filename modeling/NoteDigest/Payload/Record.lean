import NoteDigest.Payload.Field
import NoteDigest.Settings.Basic

/-! # Records — the payloads of this library

    Each check reads one kind of record.  Members that a record does not know are
    ignored. -/

namespace NoteDigest.Payload

/-- A tag with the lines it stands on. -/
def occurrence (json : Json) : Checked Occurrence := do
  let (tag, first, last) ← Checked.both (required text json "tag")
    (Checked.both (required count json "start_line") (required count json "end_line"))
  return ⟨tag, first, last⟩

/-- The fields of a note except its occurrences. -/
def note (occurrences : List Occurrence) (json : Json) : Checked Note := do
  let (path, name, lines, optedOut) ← Checked.both (required text json "path")
    (Checked.both (required text json "display_name")
      (Checked.both (withDefault (list text) [] json "lines")
        (withDefault truth false json "excluded_by_self")))
  return { path, name, lines, occurrences, optedOut }

/-- The layout of fragments; both parts are on by default. -/
def layout (json : Json) : Checked Layout := do
  let (link, callout) ← Checked.both (withDefault truth true json "include_link")
    (withDefault truth true json "include_callout")
  return ⟨link, callout⟩

/-- The settings, with defaults for what is missing. -/
def settings (json : Json) : Checked Settings := do
  let usual : Settings := {}
  let (a, b, c, d) ← Checked.both (withDefault truth usual.includeLink json "include_link")
    (Checked.both (withDefault truth usual.includeCallout json "include_callout")
      (Checked.both (withDefault truth usual.removeTags json "remove_tags")
        (withDefault truth usual.includeChildren json "include_children")))
  return ⟨a, b, c, d⟩

/-- New values for settings. -/
def settingsPatch (json : Json) : Checked SettingsPatch := do
  let (a, b, c, d) ← Checked.both (optional truth json "include_link")
    (Checked.both (optional truth json "include_callout")
      (Checked.both (optional truth json "remove_tags")
        (optional truth json "include_children")))
  return ⟨a, b, c, d⟩

/-- A request for a summary: the source of a directive, and a layout if it is not to be
    the one in the settings. -/
def summaryRequest (json : Json) : Checked (Text × Option Layout) :=
  Checked.both (required text json "source") (optional (record layout) json "options")

/-- A request for a directive block: the tags wanted, and those not wanted. -/
def directiveRequest (json : Json) : Checked (Text × Option Text) :=
  Checked.both (required nonemptyText json "include") (optional text json "exclude")

end NoteDigest.Payload
