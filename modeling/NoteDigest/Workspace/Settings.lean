import NoteDigest.Workspace.Basic
import NoteDigest.Settings.Store

/-! # Settings of a workspace — reading and updating the stored toggles -/

namespace NoteDigest.Job

/-- The stored settings. -/
def loadSettings : Job Settings := do
  let workspace ← get
  ofExcept (Settings.load workspace.files workspace.settingsPath)

/-- Stores settings. -/
def saveSettings (settings : Settings) : Job Unit := do
  let path := (← get).settingsPath
  if path.hasNul then throw .nulInPath
  change (settings.save path)

/-- Puts new values into the stored settings. -/
def updateSettings (patch : SettingsPatch) : Job Settings := do
  let settings := (← loadSettings).apply patch
  saveSettings settings
  return settings

/-- The layout that the stored settings ask for. -/
def storedLayout : Job Layout :=
  return (← loadSettings).layout

end NoteDigest.Job
