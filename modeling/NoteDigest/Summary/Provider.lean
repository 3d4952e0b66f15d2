import NoteDigest.Note.Basic

/-! # Providers — where a summary gets its notes from

    A provider lists notes and loads their metadata and their lines.  Loading can fail in
    two ways.  A note that is *unreadable* is left out of the summary; any other failure,
    of a type `ε` that depends on the provider, ends the summary. -/

namespace NoteDigest

/-- Why something could not be loaded. -/
inductive LoadFault (ε : Type)
  | unreadable
  | fatal (cause : ε)
  deriving Repr, DecidableEq

/-- A source of notes.  Listing them may fail, which ends the summary too. -/
structure Provider (ε : Type) where
  refs : Except ε (List NoteRef)
  metadata : NoteRef → Except (LoadFault ε) Metadata
  lines : NoteRef → Except (LoadFault ε) (List Text)

/-- The results of loading each of some notes, unreadable ones left out; the first fatal
    failure ends it. -/
def loadEach {ε α β : Type} (load : α → Except (LoadFault ε) β) : List α → Except ε (List β)
  | [] => .ok []
  | item :: rest =>
      match load item with
      | .ok found => (found :: ·) <$> loadEach load rest
      | .error .unreadable => loadEach load rest
      | .error (.fatal cause) => .error cause

/-- The notes that are tried when each of some notes is loaded: all up to the first fatal
    failure. -/
def triedBy {ε α β : Type} (load : α → Except (LoadFault ε) β) : List α → List α
  | [] => []
  | item :: rest =>
      match load item with
      | .error (.fatal _) => [item]
      | _ => item :: triedBy load rest

end NoteDigest
