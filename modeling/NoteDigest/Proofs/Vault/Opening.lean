import NoteDigest.Proofs.Summary.Expansion
import NoteDigest.Proofs.Text.Words
import NoteDigest.Proofs.Vault.Containment

/-! # Opening — what keeps a note from being shown

    Three things do.

    * Its path: it holds a NUL, stands for a place that is not below the root, or has more
      links open at once than there is room for (`resolve_cases_of_clear`).
    * Its file: there is none, it is too far down, or its bytes are no text
      (`openNote_of_no_file`, `openNote_of_overlong`, `openNote_of_read`).
    * Its directives: a text that asks for notes is shown only if the notes of the vault can
      be listed (`expand_isOk_iff`).

    All this is about paths on which no link turns in a circle.  Links that do are met with a
    fault of their own, or lead to what is not looked for. -/

namespace NoteDigest

open NoteDigest.Path Files

/-! ## Names of a path -/

theorem Path.exists_hasNul_of_parse {text : Text} (h : Text.hasNul text = true) :
    ∃ name ∈ (parse text).names, Text.hasNul name = true := by
  simp only [Text.hasNul, List.contains_eq_mem, decide_eq_true_eq] at h ⊢
  rw [← Text.joinWith_splitWhere '/' text] at h
  rcases Text.mem_joinWith h with hslash | ⟨piece, hpiece, hnul⟩
  · exact absurd hslash (by decide)
  · refine ⟨piece, List.mem_filter.mpr ⟨hpiece, ?_⟩, hnul⟩
    cases hidle : isIdle piece with
    | false => rfl
    | true =>
        have hnone := hasNul_of_isIdle hidle
        rw [Text.hasNul, List.contains_eq_mem, decide_eq_false_iff_not] at hnone
        exact absurd hnul hnone

theorem Path.mem_names_join {base path : Path} {name : Name} (h : name ∈ (base.join path).names) :
    name ∈ base.names ∨ name ∈ path.names := by
  rw [join] at h
  split at h
  · exact .inr h
  · exact List.mem_append.mp h

theorem Path.mem_names_join_right (base : Path) {path : Path} {name : Name}
    (h : name ∈ path.names) : name ∈ (base.join path).names := by
  rw [join]
  split
  · exact h
  · exact List.mem_append_right _ h

namespace Vault

variable {vault : Vault} {fs : Files} {top place : Place} {path : Text} {ref : NoteRef}
  {refs : List NoteRef} {bytes : ByteArray} {text : Text}

/-! ## Paths -/

/-- A path in the vault stands for a place that is not below the root. -/
def LeadsOut (vault : Vault) (fs : Files) (path : Text) : Prop :=
  ∃ top place, vault.rootPlace fs = .ok top
    ∧ fs.placeOf ((toPlace top).join (parse path)) = .ok place ∧ ¬ top <+: place

/-- More links are open at once on a path in the vault than there is room for. -/
def Overloads (vault : Vault) (fs : Files) (path : Text) : Prop :=
  ∃ top, vault.rootPlace fs = .ok top
    ∧ fs.nestsTooDeep ((toPlace top).join (parse path)).beforeNul = true

theorem resolve_of_overloads (h : vault.Overloads fs path) :
    vault.resolve fs path = .error .tooDeep := by
  obtain ⟨top, hroot, hdeep⟩ := h
  rw [resolve_eq_bind hroot, placeOf_of_nestsTooDeep hdeep]
  rfl

theorem resolve_of_hasNul (hroot : vault.rootPlace fs = .ok top)
    (hclear : vault.IsClear fs path) (hroom : ¬ vault.Overloads fs path)
    (h : Text.hasNul path = true) : vault.resolve fs path = .error .nulInPath := by
  obtain ⟨name, hname, hnul⟩ := exists_hasNul_of_parse h
  have hbad : ∃ name ∈ ((toPlace top).join (parse path)).names, Text.hasNul name = true :=
    ⟨name, mem_names_join_right _ hname, hnul⟩
  have hroom' : ¬ fs.nestsTooDeep ((toPlace top).join (parse path)).beforeNul = true :=
    fun hdeep => hroom ⟨top, hroot, hdeep⟩
  rw [resolve_eq_bind hroot, placeOf_of_hasNul hbad (hclear top hroot) hroom']
  rfl

theorem resolve_of_leadsOut (h : vault.LeadsOut fs path) :
    vault.resolve fs path = .error (.outside path) := by
  obtain ⟨top, place, hroot, hplace, hout⟩ := h
  rw [resolve_eq_bind hroot, hplace]
  exact if_neg (by simpa using hout)

/-- **WHERE A CLEAR PATH LEADS**, if there is room for its links: nowhere, for a NUL in it; out
    of the vault; or to a place below the root. -/
theorem resolve_cases_of_clear (hfs : fs.WellFormed) (hwritten : vault.IsWritten)
    (hroot : vault.rootPlace fs = .ok top) (hclear : vault.IsClear fs path)
    (hroom : ¬ vault.Overloads fs path) :
    Text.hasNul path = true ∨ vault.LeadsOut fs path
      ∨ ∃ place, vault.resolve fs path = .ok place := by
  by_cases hnul : Text.hasNul path = true
  · exact .inl hnul
  · right
    have htop := hwritten.isName_rootPlace hfs hroot
    obtain ⟨names, hjoined, hslashless⟩ := exists_toPlace_join htop path
    have hpieces : ∀ name ∈ names, IsPiece name := by
      intro name hname
      refine ⟨hslashless name hname, ?_⟩
      have hmem : name ∈ ((toPlace top).join (parse path)).names := by rwa [hjoined]
      rcases mem_names_join hmem with habove | hbelow
      · exact (htop name habove).nulless
      · have hofText := (List.mem_filter.mp hbelow).1
        exact (isPiece_ofText (by simpa using hnul) name hofText).2
    have hshallow : fs.nestsTooDeep (toPlace names) = false := by
      have hbefore : (toPlace names).beforeNul = toPlace names :=
        beforeNul_of_nulless fun name hname => (hpieces name hname).2
      rw [← hbefore, ← hjoined, ← Bool.not_eq_true]
      exact fun hdeep => hroom ⟨top, hroot, hdeep⟩
    obtain ⟨place, hplace⟩ :=
      exists_placeOf_of_clear hfs hpieces (hjoined ▸ hclear top hroot) hshallow
    rw [← hjoined] at hplace
    by_cases hbelow : top <+: place
    · right
      refine ⟨place, ?_⟩
      rw [resolve_eq_bind hroot, hplace]
      exact if_pos (List.isPrefixOf_iff_prefix.mpr hbelow)
    · exact .inl ⟨top, place, hroot, hplace, hbelow⟩

theorem openNote_of_resolve_error {fault : Fault} (h : vault.resolve fs path = .error fault) :
    vault.openNote fs path = .error fault := by
  rw [openNote, noteRef, refFor, h]
  rfl

/-! ## Faults -/

/-- If it fails, then for a fault of a path, for one of the file behind it, or because links
    turn in a circle or there is no room for them. -/
def FailsToOpen {α : Type} (result : Except Fault α) : Prop :=
  ∀ fault, result = .error fault →
    fault.isRefusal = true ∨ fault.isReading = true ∨ fault = .circularLink ∨ fault = .tooDeep

namespace FailsToOpen

variable {α β : Type}

theorem ok (value : α) : FailsToOpen (.ok value) :=
  nofun

theorem bind {result : Except Fault α} {next : α → Except Fault β} (h : FailsToOpen result)
    (hnext : ∀ value, FailsToOpen (next value)) : FailsToOpen (result >>= next) := by
  cases result with
  | error cause =>
      rintro fault hfault
      cases hfault
      exact h cause rfl
  | ok value => exact hnext value

theorem refusal {fault : Fault} (h : fault.isRefusal = true) :
    FailsToOpen (.error fault : Except Fault α) := by
  rintro _ ⟨⟩
  exact .inl h

theorem reading {fault : Fault} (h : fault.isReading = true) :
    FailsToOpen (.error fault : Except Fault α) := by
  rintro _ ⟨⟩
  exact .inr (.inl h)

theorem placeOf (fs : Files) (written : Path) : FailsToOpen (fs.placeOf written) := by
  have hdeep : FailsToOpen (.error .tooDeep : Except Fault Place) := by
    rintro _ ⟨⟩
    exact .inr (.inr (.inr rfl))
  rw [Files.placeOf]
  split
  · exact hdeep
  · split
    · exact .refusal rfl
    · split
      · exact .ok _
      · exact hdeep
      · rintro _ ⟨⟩
        exact .inr (.inr (.inl rfl))

theorem resolve (vault : Vault) (fs : Files) (path : Text) :
    FailsToOpen (vault.resolve fs path) := by
  refine .bind (.placeOf fs _) fun top => .bind (.placeOf fs _) fun place => ?_
  split
  · exact .ok _
  · exact .refusal rfl

theorem noteRef (vault : Vault) (fs : Files) (path : Text) :
    FailsToOpen (vault.noteRef fs path) := by
  have href : FailsToOpen (vault.refFor fs path) :=
    .bind (.resolve vault fs path) fun place => .bind (.placeOf fs _) fun top => .ok _
  refine .bind href fun ref => .bind (.resolve vault fs ref.path) fun place => .bind ?_ fun _ => ?_
  · rw [refuseOverlong]
    split
    · exact .reading rfl
    · exact .ok _
  · split
    · exact .ok _
    · exact .reading rfl

theorem readText (vault : Vault) (fs : Files) (ref : NoteRef) :
    FailsToOpen (vault.readText fs ref) := by
  refine .bind (.resolve vault fs ref.path) fun place => .bind ?_ fun bytes => ?_
  · cases fs.read (toPlace place) with
    | ok bytes => exact .ok _
    | error cause => exact .reading rfl
  · split
    · exact .ok _
    · exact .reading rfl

/-- **NO OTHER FAULT** keeps a note from being opened. -/
theorem openNote (vault : Vault) (fs : Files) (path : Text) :
    FailsToOpen (vault.openNote fs path) :=
  .bind (.noteRef vault fs path) fun ref => .bind (.readText vault fs ref) fun _ => .ok _

end FailsToOpen

/-! ## Files -/

section Clear

variable (hfs : fs.WellFormed) (hwritten : vault.IsWritten) (hclear : vault.IsClear fs path)
  (hresolved : vault.resolve fs path = .ok place)

include hfs hwritten hclear hresolved

/-- A clear path is taken for the file at the place that it stands for. -/
theorem noteRef_of_clear :
    ∃ ref, vault.resolve fs ref.path = .ok place
      ∧ vault.noteRef fs path = (fs.refuseOverlong (toPlace place)).bind fun _ =>
        if fs.isFile (toPlace place) then .ok ref else .error (.noNote path) := by
  obtain ⟨top, hroot, -⟩ := prefix_of_resolve hresolved
  have href := refFor_of_resolve hroot hresolved
  have hsame := (resolve_eq_of_clear hfs hwritten hclear href).trans hresolved
  refine ⟨_, hsame, ?_⟩
  rw [noteRef, href]
  simp only [bind, Except.bind, hsame]
  rfl

/-- **TOO FAR DOWN** the system does not look. -/
theorem openNote_of_overlong (hlong : fs.isOverlong (toPlace place) = true) :
    vault.openNote fs path = .error (.file .nameTooLong) := by
  obtain ⟨ref, -, hnote⟩ := noteRef_of_clear hfs hwritten hclear hresolved
  rw [openNote, hnote, refuseOverlong, if_pos hlong]
  rfl

/-- **NO FILE**, no note. -/
theorem openNote_of_no_file (hshort : fs.isOverlong (toPlace place) = false)
    (hnone : fs.isFile (toPlace place) = false) :
    vault.openNote fs path = .error (.noNote path) := by
  obtain ⟨ref, -, hnote⟩ := noteRef_of_clear hfs hwritten hclear hresolved
  rw [openNote, hnote, refuseOverlong, hshort, hnone]
  rfl

/-- **A FILE** gives the note with its text, if its bytes are a text. -/
theorem openNote_of_read (hread : fs.read (toPlace place) = .ok bytes) :
    ∃ ref, vault.openNote fs path
      = match Text.ofUtf8? bytes with
        | some text => .ok (ref, Text.unixNewlines text)
        | none => .error (.undecodable ref.path) := by
  obtain ⟨ref, hsame, hnote⟩ := noteRef_of_clear hfs hwritten hclear hresolved
  have hstat : ∃ stamp, fs.stat (toPlace place) = .ok (.file bytes stamp) := by
    rw [Files.read] at hread
    split at hread
    · rename_i found stamp hstat
      exact ⟨stamp, by rw [hstat, Except.ok.inj hread]⟩
    · cases hread
    · cases hread
    · cases hread
  obtain ⟨stamp, hstat⟩ := hstat
  have hfound : vault.noteRef fs path = .ok ref := by
    rw [hnote, refuseOverlong, isOverlong, isFile, hstat]
    rfl
  refine ⟨ref, ?_⟩
  rw [openNote, hfound]
  simp only [bind, Except.bind, readText, hsame, hread, Except.mapError]
  cases Text.ofUtf8? bytes <;> rfl

end Clear

/-! ## Directives -/

/-- A text asks for notes: the query of one of its blocks is not empty. -/
def Asks (text : Text) : Prop :=
  ∃ block ∈ Directive.blocks text, (Query.ofSource block.body).isEmpty = false

/-- Metadata is remembered, or it is as if nothing were remembered. -/
theorem metadata_isOk_or_fresh (vault : Vault) (fs : Files) (ref : NoteRef) :
    (∃ found, vault.metadata fs ref = .ok found)
      ∨ vault.metadata fs ref = vault.fresh.metadata fs ref := by
  have hstamp : vault.fresh.stampOf fs ref = vault.stampOf fs ref := rfl
  rw [metadata, metadata, hstamp]
  cases vault.stampOf fs ref with
  | error fault => exact .inr rfl
  | ok told =>
      cases told with
      | none => exact .inr rfl
      | some stamp =>
          have hforgotten : vault.fresh.remembered? ref.path stamp = none := rfl
          simp only [bind, Except.bind, Option.bind, hforgotten]
          cases vault.remembered? ref.path stamp with
          | none => exact .inr rfl
          | some found => exact .inl ⟨found, rfl⟩

/-- What is remembered makes no metadata fail. -/
theorem forgiving_metadata (hfs : fs.WellFormed) (h : vault.notes fs = .ok refs)
    (hconverts : ∀ ref ∈ refs, vault.Converts fs ref) :
    Forgiving (vault.provider fs).metadata refs := by
  intro ref href cause hfatal
  have hmetadata : (vault.metadata fs ref).mapError loadFault = .error (.fatal cause) := hfatal
  have hfresh : vault.fresh.notes fs = .ok refs := h
  rcases metadata_isOk_or_fresh vault fs ref with ⟨found, hfound⟩ | hsame
  · rw [hfound] at hmetadata
    cases hmetadata
  · rw [hsame] at hmetadata
    exact (forgiving_metadata_iff rfl hfs hfresh).mpr hconverts ref href cause hmetadata

/-- The notes of the vault convert, if they can be listed. -/
def NotesConvert (vault : Vault) (fs : Files) : Prop :=
  ∀ refs, vault.notes fs = .ok refs → ∀ ref ∈ refs, vault.Converts fs ref

/-- A summary succeeds exactly when it asks for no notes or these can be listed. -/
theorem summary_result_isOk_iff (hfs : fs.WellFormed) (hconverts : vault.NotesConvert fs)
    (source : Text) (layout : Layout) :
    (∃ found, ((vault.provider fs).summary source layout).result = .ok found)
      ↔ ((Query.ofSource source).isEmpty = false → ¬ vault.Unlisted fs) := by
  rw [not_unlisted_iff]
  by_cases hempty : (Query.ofSource source).isEmpty = true
  · refine iff_of_true ⟨.nothing, Provider.summary_result_of_isEmpty hempty⟩ fun hwants => ?_
    rw [hempty] at hwants
    cases hwants
  · constructor
    · rintro ⟨found, hfound⟩ -
      cases hstubs : (vault.provider fs).stubs with
      | error cause =>
          rw [Provider.summary_result_of_stubs_error hempty hstubs] at hfound
          cases hfound
      | ok stubs =>
          obtain ⟨refs, hnotes, -⟩ := Provider.stubs_isOk_iff.mp ⟨stubs, hstubs⟩
          exact ⟨refs, hnotes⟩
    · intro hlisted
      obtain ⟨refs, hnotes⟩ := hlisted (by simpa using hempty)
      exact ⟨_, Provider.summary_result_eq ⟨hnotes,
        forgiving_metadata hfs hnotes (hconverts refs hnotes), forgiving_lines hfs hnotes⟩ _ _⟩

/-- **A TEXT IS SHOWN** exactly when it asks for no notes or these can be listed. -/
theorem expand_isOk_iff (hfs : fs.WellFormed) (hconverts : vault.NotesConvert fs) (text : Text)
    (layout : Layout) :
    (∃ shown, (vault.expand fs text layout).1 = .ok shown)
      ↔ (Asks text → ¬ vault.Unlisted fs) := by
  show (∃ shown, ((vault.provider fs).expand text layout).result = .ok shown) ↔ _
  have hpart : ∀ block, (∃ part, ((vault.provider fs).part layout block).result = .ok part)
      ↔ ((Query.ofSource block.body).isEmpty = false → ¬ vault.Unlisted fs) :=
    fun block => (Run.map_isOk_iff _ _).trans
      (summary_result_isOk_iff hfs hconverts block.body layout)
  rw [Provider.expand_eq_splice, Run.map_isOk_iff, Run.sequence_isOk_iff, List.forall_mem_map]
  simp only [hpart]
  constructor
  · rintro hall ⟨block, hblock, hwants⟩
    exact hall block hblock hwants
  · intro hasks block hblock hwants
    exact hasks ⟨block, hblock, hwants⟩

/-- **A FAILURE** of what succeeds exactly when the notes it asks for can be listed: it asks for
    them, and they cannot. -/
theorem isError_iff_unlisted {α : Type} {result : Except Fault α} {asks : Prop}
    (h : (∃ found, result = .ok found) ↔ (asks → ¬ vault.Unlisted fs)) :
    (∃ fault, result = .error fault) ↔ asks ∧ vault.Unlisted fs := by
  have hresult : (∃ fault, result = .error fault) ↔ ¬ ∃ found, result = .ok found := by
    cases result <;> simp
  rw [hresult, h, Classical.not_imp, not_not]

end Vault
end NoteDigest
