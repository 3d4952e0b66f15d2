import NoteDigest.Vault.Content
import NoteDigest.Summary.Expand

/-! # Digests — summaries and tags of a vault

    A vault provides its notes to summaries.  Each operation gives its result together
    with the vault as it is afterwards, which remembers the metadata of every note that
    was asked for, be the result a fault or not. -/

namespace NoteDigest.Vault

/-- A fault met while a note is loaded: reading faults leave the note out. -/
def loadFault (fault : Fault) : LoadFault Fault :=
  if fault.isReading then .unreadable else .fatal fault

/-- The notes of a vault, for summaries. -/
def provider (vault : Vault) (fs : Files) : Provider Fault where
  refs := vault.notes fs
  metadata := fun ref => (vault.metadata fs ref).mapError loadFault
  lines := fun ref => (vault.lines fs ref).mapError loadFault

/-- The result of a run over the notes of a vault, and the vault afterwards. -/
def afterRun {α : Type} (vault : Vault) (fs : Files) (run : Run Fault α) : Except Fault α × Vault :=
  (run.result, vault.rememberAll fs run.probes)

/-- The summary that a directive yields. -/
def summary (vault : Vault) (fs : Files) (source : Text) (layout : Layout) :
    Except Fault Summary × Vault :=
  vault.afterRun fs ((vault.provider fs).summary source layout)

/-- The text with each of its blocks replaced by what it yields. -/
def expand (vault : Vault) (fs : Files) (text : Text) (layout : Layout) :
    Except Fault Text × Vault :=
  vault.afterRun fs ((vault.provider fs).expand text layout)

/-- Tags in order, each once. -/
def sortTags (tags : List Tag) : List Tag :=
  tags.eraseDups.mergeSort Text.le

/-- The tags in all notes that can be read. -/
def tags (vault : Vault) (fs : Files) : Except Fault (List Tag) × Vault :=
  let provider := vault.provider fs
  let found := do
    let each ← loadEach provider.metadata (← provider.refs)
    return sortTags (each.flatMap fun metadata => metadata.occurrences.map Occurrence.tag)
  (found, vault.rememberAll fs provider.probes)

end NoteDigest.Vault
