import NoteDigest.Files.Change
import NoteDigest.Vault.Digest

/-! # Workspaces — the files, the vaults in use and the jobs done on them

    A workspace knows two paths, of the vault that is used when none is named and of the
    settings file.  Vaults in use are shared: there is one for each place that a root
    resolves to, so that what one job makes a vault remember serves the next.

    A job may fail; what it has done until then stays done. -/

namespace NoteDigest

/-- The files, and what is known of them from one job to the next. -/
structure Workspace where
  files : Files
  vaultPath : Text
  settingsPath : Text
  /-- The vaults in use, by the places their roots resolved to. -/
  vaults : List (Place × Vault) := []
  /-- The number of the next write. -/
  ticks : Nat := 0

/-- Something done on a workspace. -/
abbrev Job (α : Type) := ExceptT Fault (StateM Workspace) α

namespace Workspace

/-- The root that a text names; the usual vault when there is none or it is empty. -/
def rootText (workspace : Workspace) (root : Option Text) : Text :=
  match root with
  | some (c :: rest) => c :: rest
  | _ => workspace.vaultPath

/-- The vault in use at a place, or a new one at a root. -/
def vaultAt (workspace : Workspace) (place : Place) (root : Text) : Vault :=
  (workspace.vaults.lookup place).getD (.ofText root)

/-- The workspace with the vault at a place replaced. -/
def putVault (workspace : Workspace) (place : Place) (vault : Vault) : Workspace :=
  { workspace with
    vaults := (place, vault) :: workspace.vaults.filter (·.1 != place) }

end Workspace

namespace Job

variable {α : Type}

/-- The job of giving a result or a fault. -/
def ofExcept (result : Except Fault α) : Job α :=
  match result with
  | .ok value => pure value
  | .error fault => throw fault

/-- Does a job and gives its result, be it a fault or not. -/
def attempt (job : Job α) : Job (Except Fault α) :=
  fun workspace =>
    let (result, after) := job workspace
    (.ok result, after)

/-- The place of the shared vault at a root; the vault is in use from then on. -/
def openVault (root : Option Text) : Job Place := do
  let workspace ← get
  let text := workspace.rootText root
  let place ← ofExcept (workspace.files.placeOf (Path.parse text))
  set (workspace.putVault place (workspace.vaultAt place text))
  return place

/-- Asks the vault in use at a place for something; it may remember what it read. -/
def useVault (place : Place) (ask : Vault → Files → Except Fault α × Vault) : Job α := do
  let workspace ← get
  let (result, vault) := ask (workspace.vaultAt place []) workspace.files
  set (workspace.putVault place vault)
  ofExcept result

/-- Asks the vault in use at a place for something that it will not remember. -/
def askVault (place : Place) (ask : Vault → Files → Except Fault α) : Job α :=
  useVault place fun vault fs => (ask vault fs, vault)

/-- Changes files; whatever is written bears the same stamp. -/
def change (act : Stamp → Files.Change α) : Job α := do
  let workspace ← get
  let (result, files) := act (.tick workspace.ticks) workspace.files
  set { workspace with files := files, ticks := workspace.ticks + 1 }
  ofExcept (result.mapError Fault.file)

end Job
end NoteDigest
