import NoteDigest.Proofs.Note.FrontMatter
import NoteDigest.Proofs.Summary.Staging
import NoteDigest.Proofs.Vault.Listing
import NoteDigest.Vault.Digest

/-! # Reading — what a vault without memory makes of its notes

    A note whose file is there either gives lines or fails to be read, which a summary
    forgives (`isReading_of_lines_error`).  The failures that it does not forgive come from
    the front matter: a scalar in it that cannot be converted, or a value that cannot be
    written (`Converts`).  When no note has one, the vault serves its notes (`serves_notes`),
    each as `Note.ofLines` makes it from its lines. -/

namespace NoteDigest

open NoteDigest.Path Files

/-- The note that some lines make.  Front matter that gives no properties is as good as
    empty. -/
def Note.ofLines (ref : NoteRef) (lines : List Text) : Note :=
  { path := ref.path, name := ref.name, lines := lines
    occurrences := Note.occurrencesIn lines
    optedOut := Note.optsOut ((Note.properties lines).toOption.getD []) }

namespace Vault

variable {vault : Vault} {fs : Files} {place : Place} {ref : NoteRef} {refs : List NoteRef}
  {bytes : ByteArray} {stamp : Stamp}

/-! ## The lines of a note -/

/-- The lines that some bytes hold. -/
def linesOf (path : Text) (bytes : ByteArray) : Except Fault (List Text) :=
  match Text.ofUtf8? bytes with
  | some text => .ok (Text.lines (Text.unixNewlines text))
  | none => .error (.undecodable path)

/-- Lines are read from the file that the path of the note stands for. -/
theorem lines_eq (h : vault.resolve fs ref.path = .ok place) :
    vault.lines fs ref
      = ((fs.read (toPlace place)).mapError Fault.file).bind (linesOf ref.path) := by
  rw [lines, readText, h]
  show Except.map Text.lines
    (((fs.read (toPlace place)).mapError Fault.file).bind fun bytes => _) = _
  cases fs.read (toPlace place) with
  | error fault => rfl
  | ok bytes =>
      show Except.map Text.lines _ = linesOf ref.path bytes
      rw [linesOf]
      simp only [Except.mapError, Except.bind]
      cases Text.ofUtf8? bytes <;> rfl

/-- The file of a note is found, unless it is too far down. -/
theorem stat_of_holds (h : vault.Holds fs ref place)
    (hfile : fs.get? place = some (.file bytes stamp)) :
    fs.stat (toPlace place) = .ok (.file bytes stamp)
      ∨ fs.stat (toPlace place) = .error .nameTooLong := by
  have hstat := stat_plain h.plain
  rw [hfile] at hstat
  exact hstat

theorem lines_of_holds (h : vault.Holds fs ref place)
    (hfile : fs.get? place = some (.file bytes stamp)) :
    vault.lines fs ref = linesOf ref.path bytes
      ∨ vault.lines fs ref = .error (.file .nameTooLong) := by
  rw [lines_eq h.resolved, Files.read]
  rcases stat_of_holds h hfile with hstat | hstat
  · left
    rw [hstat]
    rfl
  · right
    rw [hstat]
    rfl

/-- **READING FAULTS**: a note that is there fails to be read as one file does. -/
theorem isReading_of_lines_error {fault : Fault} (h : vault.Holds fs ref place)
    (hlines : vault.lines fs ref = .error fault) : fault.isReading = true := by
  obtain ⟨bytes, stamp, hfile⟩ := h.file
  rcases lines_of_holds h hfile with hfound | hlong
  · rw [hfound, linesOf] at hlines
    split at hlines
    · cases hlines
    · rw [← Except.error.inj hlines]
      rfl
  · rw [hlong] at hlines
    rw [← Except.error.inj hlines]
    rfl

/-! ## The metadata of a note -/

/-- Where nothing is remembered, metadata is read. -/
theorem metadata_eq_readMetadata (hmemory : vault.memory = []) (fs : Files) (ref : NoteRef) :
    vault.metadata fs ref = vault.readMetadata fs ref := by
  have hforgotten : ∀ stamp : Option Stamp, stamp.bind (vault.remembered? ref.path) = none := by
    intro stamp
    cases stamp with
    | none => rfl
    | some stamp => simp [remembered?, hmemory]
  rw [metadata]
  cases hstamp : vault.stampOf fs ref with
  | ok stamp =>
      simp only [bind, Except.bind, hforgotten]
  | error fault =>
      -- what keeps the time from being told keeps the lines from being read
      show Except.error fault = (vault.lines fs ref).bind fun lines => _
      rw [stampOf] at hstamp
      cases hplace : vault.resolve fs ref.path with
      | error cause =>
          rw [hplace] at hstamp
          obtain rfl : cause = fault := Except.error.inj hstamp
          rw [lines, readText, hplace]
          rfl
      | ok place =>
          rw [hplace] at hstamp
          rw [lines_eq hplace, Files.read]
          cases hfound : fs.stat (toPlace place) with
          | ok entry =>
              simp only [bind, Except.bind, hfound] at hstamp
              cases entry <;> cases hstamp
          | error cause =>
              simp only [bind, Except.bind, hfound] at hstamp
              rw [← Except.error.inj hstamp]
              rfl

/-- The front matter of a note converts, if it has lines. -/
def Converts (vault : Vault) (fs : Files) (ref : NoteRef) : Prop :=
  ∀ lines, vault.lines fs ref = .ok lines → Note.Converts lines

instance (vault : Vault) (fs : Files) (ref : NoteRef) : Decidable (vault.Converts fs ref) :=
  decidable_of_iff (∀ lines ∈ (vault.lines fs ref).toOption, Note.Converts lines) (by
    rw [Converts]
    cases vault.lines fs ref <;> simp [Except.toOption])

/-- What a summary makes of the metadata of a note. -/
theorem provider_metadata (hmemory : vault.memory = []) (fs : Files) (ref : NoteRef) :
    (vault.provider fs).metadata ref
      = match vault.lines fs ref with
        | .error fault => .error (loadFault fault)
        | .ok lines =>
            match Note.metadataOf lines with
            | .ok found => .ok found
            | .error cause => .error (.fatal (.property cause)) := by
  show (vault.metadata fs ref).mapError loadFault = _
  rw [metadata_eq_readMetadata hmemory, readMetadata]
  cases vault.lines fs ref with
  | error fault => rfl
  | ok lines =>
      show ((Note.metadataOf lines).mapError Fault.property).mapError loadFault
        = match Note.metadataOf lines with
          | .ok found => .ok found
          | .error cause => .error (.fatal (.property cause))
      cases Note.metadataOf lines <;> rfl

theorem provider_lines (vault : Vault) (fs : Files) (ref : NoteRef) :
    (vault.provider fs).lines ref = (vault.lines fs ref).mapError loadFault := rfl

/-- **THE NOTE BEHIND A REFERENCE** is what its lines make, be it a note at all. -/
theorem document?_eq (hmemory : vault.memory = []) (h : vault.Converts fs ref) :
    (vault.provider fs).document? ref
      = (vault.lines fs ref).toOption.map (Note.ofLines ref) := by
  rw [Provider.document?, provider_metadata hmemory, provider_lines]
  cases hlines : vault.lines fs ref with
  | error fault => rfl
  | ok lines =>
      obtain ⟨found, hfound⟩ := Note.metadataOf_isOk_iff.mpr (h lines hlines)
      simp only [hfound]
      show some _ = some (Note.ofLines ref lines)
      rw [Note.ofLines, ← Note.optedOut_of_metadataOf hfound,
        ← Note.occurrences_of_metadataOf hfound]
      rfl

/-! ## Fatal failures -/

/-- **BAD FRONT MATTER**: the metadata of a note that is there fails fatally for the front
    matter of the note only. -/
theorem fatal_metadata_eq (hmemory : vault.memory = []) (h : vault.Holds fs ref place)
    {fault : Fault} (hfatal : (vault.provider fs).metadata ref = .error (.fatal fault)) :
    ∃ lines cause, vault.lines fs ref = .ok lines ∧ Note.metadataOf lines = .error cause
      ∧ fault = .property cause := by
  rw [provider_metadata hmemory] at hfatal
  cases hlines : vault.lines fs ref with
  | error reading =>
      rw [hlines] at hfatal
      have hfault : loadFault reading = .fatal fault := Except.error.inj hfatal
      rw [loadFault, if_pos (isReading_of_lines_error h hlines)] at hfault
      cases hfault
  | ok lines =>
      simp only [hlines] at hfatal
      cases hfound : Note.metadataOf lines with
      | ok found => simp [hfound] at hfatal
      | error cause =>
          simp only [hfound, Except.error.injEq, LoadFault.fatal.injEq] at hfatal
          exact ⟨lines, cause, rfl, hfound, hfatal.symm⟩

/-- It does so exactly when the front matter does not convert. -/
theorem fatal_metadata_iff (hmemory : vault.memory = []) (h : vault.Holds fs ref place) :
    (∃ fault, (vault.provider fs).metadata ref = .error (.fatal fault))
      ↔ ¬ vault.Converts fs ref := by
  constructor
  · rintro ⟨fault, hfatal⟩ hconverts
    obtain ⟨lines, cause, hlines, hfound, -⟩ := fatal_metadata_eq hmemory h hfatal
    obtain ⟨found, hok⟩ := Note.metadataOf_isOk_iff.mpr (hconverts lines hlines)
    cases hfound.symm.trans hok
  · intro hbad
    rw [Converts] at hbad
    push Not at hbad
    obtain ⟨lines, hlines, hlinesbad⟩ := hbad
    rw [provider_metadata hmemory, hlines]
    cases hfound : Note.metadataOf lines with
    | ok found => exact absurd (Note.metadataOf_isOk_iff.mp ⟨found, hfound⟩) hlinesbad
    | error cause => exact ⟨.property cause, by simp only [hfound]⟩

theorem forgiving_metadata_iff (hmemory : vault.memory = []) (hfs : fs.WellFormed)
    (h : vault.notes fs = .ok refs) :
    Forgiving (vault.provider fs).metadata refs ↔ ∀ ref ∈ refs, vault.Converts fs ref := by
  constructor
  · intro hforgiving ref href
    obtain ⟨place, hholds⟩ := holds_of_mem_notes hfs h href
    by_contra hbad
    obtain ⟨cause, hfatal⟩ := (fatal_metadata_iff hmemory hholds).mpr hbad
    exact hforgiving ref href cause hfatal
  · intro hconverts ref href cause hfatal
    obtain ⟨place, hholds⟩ := holds_of_mem_notes hfs h href
    exact (fatal_metadata_iff hmemory hholds).mp ⟨cause, hfatal⟩ (hconverts ref href)

theorem forgiving_lines (hfs : fs.WellFormed) (h : vault.notes fs = .ok refs) :
    Forgiving (vault.provider fs).lines refs := by
  intro ref href cause hfatal
  obtain ⟨place, hholds⟩ := holds_of_mem_notes hfs h href
  rw [provider_lines] at hfatal
  cases hlines : vault.lines fs ref with
  | ok lines => rw [hlines] at hfatal; cases hfatal
  | error fault =>
      rw [hlines] at hfatal
      have hfault : loadFault fault = .fatal cause := Except.error.inj hfatal
      rw [loadFault, if_pos (isReading_of_lines_error hholds hlines)] at hfault
      cases hfault

/-- **A VAULT SERVES ITS NOTES** when the front matter of each converts. -/
theorem serves_notes (hmemory : vault.memory = []) (hfs : fs.WellFormed)
    (h : vault.notes fs = .ok refs) (hconverts : ∀ ref ∈ refs, vault.Converts fs ref) :
    (vault.provider fs).Serves refs :=
  ⟨h, (forgiving_metadata_iff hmemory hfs h).mpr hconverts, forgiving_lines hfs h⟩

end Vault
end NoteDigest
