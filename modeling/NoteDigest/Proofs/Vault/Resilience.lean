import NoteDigest.Proofs.Vault.Removal

/-! # Resilience — what one bad note does to a vault

    A note that is no text is left out of summaries, and front matter that is no mapping
    counts as empty.  Other notes do not notice: they contribute what they contribute to
    the vault without the bad note (`readableNotes_erase`).

    There are exceptions.  Front matter with a scalar that cannot be converted, such as a date
    in a thirteenth month, ends every summary and the list of tags, and so does a value that
    cannot be written where a note may opt out, such as an integer of more than 4300 digits.
    These succeed exactly when the notes can be listed and no note has such front matter
    (`summary_isOk_iff`, `tags_isOk_iff`). -/

namespace NoteDigest.Vault

open NoteDigest.Path Files

variable {vault : Vault} {fs : Files} {place gone : Place} {ref : NoteRef} {refs : List NoteRef}
  {bytes : ByteArray} {stamp : Stamp}

/-- The notes of a vault that have lines, each as its lines make it. -/
def readableNotes (vault : Vault) (fs : Files) : List Note :=
  match vault.notes fs with
  | .ok refs => refs.filterMap fun ref => (vault.lines fs ref).toOption.map (Note.ofLines ref)
  | .error _ => []

/-- The notes can be listed, and the front matter of each converts. -/
def AllConvert (vault : Vault) (fs : Files) : Prop :=
  ∃ refs, vault.notes fs = .ok refs ∧ ∀ ref ∈ refs, vault.Converts fs ref

theorem readableNotes_of_notes (h : vault.notes fs = .ok refs) :
    vault.readableNotes fs
      = refs.filterMap fun ref => (vault.lines fs ref).toOption.map (Note.ofLines ref) := by
  rw [readableNotes, h]

/-- The list of notes is in order. -/
theorem sort_notes (h : vault.notes fs = .ok refs) : NoteRef.sort refs = refs := by
  rcases notes_cases vault fs with ⟨fault, hfault⟩ | hnone | ⟨top, -, hlisted⟩
  · cases h.symm.trans hfault
  · rw [Except.ok.inj (h.symm.trans hnone)]
    exact List.mergeSort_nil
  · rw [Except.ok.inj (h.symm.trans hlisted), refsOf_eq]
    exact List.mergeSort_of_pairwise (Text.ascending_mergeSort NoteRef.path _)

/-! ## When summaries succeed -/

/-- **THE SUMMARY** of notes that all convert is that of the readable ones. -/
theorem summary_eq (hmemory : vault.memory = []) (hfs : fs.WellFormed) (h : vault.AllConvert fs)
    (source : Text) (layout : Layout) :
    (vault.summary fs source layout).1
      = .ok (Summary.ofNotes (vault.readableNotes fs) (Query.ofSource source) layout) := by
  obtain ⟨refs, hnotes, hconverts⟩ := h
  show ((vault.provider fs).summary source layout).result = _
  rw [Provider.summary_result_eq (serves_notes hmemory hfs hnotes hconverts), sort_notes hnotes,
    readableNotes_of_notes hnotes,
    List.filterMap_congr fun ref href => document?_eq hmemory (hconverts ref href)]

/-- **EXACTLY THEN** a summary succeeds, unless its query is empty. -/
theorem summary_isOk_iff (hmemory : vault.memory = []) (hfs : fs.WellFormed) (source : Text)
    (layout : Layout) :
    (∃ found, (vault.summary fs source layout).1 = .ok found)
      ↔ (Query.ofSource source).isEmpty = true ∨ vault.AllConvert fs := by
  constructor
  · rintro ⟨found, hfound⟩
    by_cases hempty : (Query.ofSource source).isEmpty = true
    · exact .inl hempty
    · -- a summary that succeeds has loaded all metadata
      right
      have hresult : ((vault.provider fs).summary source layout).result = .ok found := hfound
      have hstubs : ∃ stubs, (vault.provider fs).stubs = .ok stubs := by
        cases hstubs : (vault.provider fs).stubs with
        | error cause =>
            rw [Provider.summary_result_of_stubs_error hempty hstubs] at hresult
            cases hresult
        | ok stubs => exact ⟨stubs, rfl⟩
      obtain ⟨refs, hnotes, hforgiving⟩ := Provider.stubs_isOk_iff.mp hstubs
      exact ⟨refs, hnotes, (forgiving_metadata_iff hmemory hfs hnotes).mp hforgiving⟩
  · rintro (hempty | hall)
    · exact ⟨.nothing, Provider.summary_result_of_isEmpty hempty⟩
    · exact ⟨_, summary_eq hmemory hfs hall source layout⟩

/-! ## When the tags are told -/

/-- The tags that some metadata holds, in order. -/
def tagsOf (each : List Metadata) : List Tag :=
  sortTags (each.flatMap fun metadata => metadata.occurrences.map Occurrence.tag)

theorem tags_eq_bind (vault : Vault) (fs : Files) :
    (vault.tags fs).1 = (vault.notes fs).bind fun refs =>
      (loadEach (vault.provider fs).metadata refs).map tagsOf := by
  show (do return tagsOf (← loadEach (vault.provider fs).metadata (← vault.notes fs))) = _
  cases vault.notes fs with
  | error fault => rfl
  | ok refs =>
      show (do return tagsOf (← loadEach (vault.provider fs).metadata refs)) = Except.map _ _
      cases loadEach (vault.provider fs).metadata refs <;> rfl

theorem tags_of_notes (h : vault.notes fs = .ok refs) :
    (vault.tags fs).1 = (loadEach (vault.provider fs).metadata refs).map tagsOf := by
  rw [tags_eq_bind, h]
  rfl

/-- **EXACTLY THEN** the tags are told. -/
theorem tags_isOk_iff (hmemory : vault.memory = []) (hfs : fs.WellFormed) :
    (∃ found, (vault.tags fs).1 = .ok found) ↔ vault.AllConvert fs := by
  cases hnotes : vault.notes fs with
  | error fault =>
      refine iff_of_false ?_ ?_
      · rintro ⟨found, hfound⟩
        rw [tags_eq_bind, hnotes] at hfound
        cases hfound
      · rintro ⟨refs, hrefs, -⟩
        cases hnotes.symm.trans hrefs
  | ok refs =>
      have hiff := forgiving_metadata_iff hmemory hfs hnotes
      rw [tags_of_notes hnotes]
      constructor
      · rintro ⟨found, hfound⟩
        refine ⟨refs, hnotes, hiff.mp (loadEach_isOk_iff.mp ?_)⟩
        cases hload : loadEach (vault.provider fs).metadata refs with
        | error cause => rw [hload] at hfound; cases hfound
        | ok each => exact ⟨each, rfl⟩
      · rintro ⟨_, hrefs, hconverts⟩
        obtain rfl := Except.ok.inj (hnotes.symm.trans hrefs)
        obtain ⟨each, heach⟩ := loadEach_isOk_iff.mpr (hiff.mpr hconverts)
        exact ⟨_, congrArg (Except.map _) heach⟩

/-- The metadata of a note that converts is that of the note its lines make. -/
theorem metadata_toOption_eq (hmemory : vault.memory = []) (h : vault.Converts fs ref) :
    ((vault.provider fs).metadata ref).toOption
      = ((vault.lines fs ref).toOption.map (Note.ofLines ref)).map fun note =>
          ⟨note.occurrences, note.optedOut⟩ := by
  rw [provider_metadata hmemory]
  cases hlines : vault.lines fs ref with
  | error fault => rfl
  | ok lines =>
      obtain ⟨found, hfound⟩ := Note.metadataOf_isOk_iff.mpr (h lines hlines)
      simp only [hfound]
      show some found = some ⟨(Note.ofLines ref lines).occurrences, _⟩
      rw [Note.ofLines, ← Note.optedOut_of_metadataOf hfound,
        ← Note.occurrences_of_metadataOf hfound]

/-- **THE TAGS** of notes that all convert are those of the readable ones. -/
theorem tags_eq (hmemory : vault.memory = []) (hfs : fs.WellFormed) (h : vault.AllConvert fs) :
    (vault.tags fs).1 = .ok (sortTags ((vault.readableNotes fs).flatMap fun note =>
      note.occurrences.map Occurrence.tag)) := by
  obtain ⟨refs, hnotes, hconverts⟩ := h
  have hforgiving := (forgiving_metadata_iff hmemory hfs hnotes).mpr hconverts
  rw [tags_of_notes hnotes, readableNotes_of_notes hnotes, loadEach_eq_filterMap hforgiving,
    List.filterMap_congr fun ref href => metadata_toOption_eq hmemory (hconverts ref href),
    ← List.map_filterMap]
  show Except.ok (tagsOf _) = _
  rw [tagsOf, List.flatMap_map]

/-! ## What they fail with -/

/-- The fault is that of listing the notes, or that of the front matter of a listed one. -/
def Accounts (vault : Vault) (fs : Files) (fault : Fault) : Prop :=
  vault.notes fs = .error fault
    ∨ ∃ refs, vault.notes fs = .ok refs ∧ ∃ ref ∈ refs, ∃ lines cause,
        vault.lines fs ref = .ok lines ∧ Note.metadataOf lines = .error cause
          ∧ fault = .property cause

/-- A fatal failure of the metadata of a listed note is one of its front matter. -/
theorem accounts_of_fatal (hmemory : vault.memory = []) (hfs : fs.WellFormed) {fault : Fault}
    (hnotes : vault.notes fs = .ok refs) (href : ref ∈ refs)
    (hfatal : (vault.provider fs).metadata ref = .error (.fatal fault)) :
    vault.Accounts fs fault := by
  obtain ⟨place, hholds⟩ := holds_of_mem_notes hfs hnotes href
  exact .inr ⟨refs, hnotes, ref, href, fatal_metadata_eq hmemory hholds hfatal⟩

theorem accounts_of_tags_error (hmemory : vault.memory = []) (hfs : fs.WellFormed)
    {fault : Fault} (h : (vault.tags fs).1 = .error fault) : vault.Accounts fs fault := by
  cases hnotes : vault.notes fs with
  | error cause =>
      rw [tags_eq_bind, hnotes] at h
      obtain rfl : cause = fault := Except.error.inj h
      exact .inl hnotes
  | ok refs =>
      rw [tags_of_notes hnotes] at h
      cases hload : loadEach (vault.provider fs).metadata refs with
      | error cause =>
          rw [hload] at h
          obtain rfl : cause = fault := Except.error.inj h
          obtain ⟨ref, href, hfatal⟩ := exists_fatal_of_loadEach_eq_error hload
          exact accounts_of_fatal hmemory hfs hnotes href hfatal
      | ok each =>
          rw [hload] at h
          cases h

theorem accounts_of_stubs_error (hmemory : vault.memory = []) (hfs : fs.WellFormed)
    {fault : Fault} (h : (vault.provider fs).stubs = .error fault) : vault.Accounts fs fault := by
  cases hnotes : vault.notes fs with
  | error cause =>
      rw [Provider.stubs, show (vault.provider fs).refs = .error cause from hnotes] at h
      obtain rfl : cause = fault := Except.error.inj h
      exact .inl hnotes
  | ok refs =>
      rw [Provider.stubs, show (vault.provider fs).refs = .ok refs from hnotes] at h
      obtain ⟨ref, href, hfatal⟩ := exists_fatal_of_loadEach_eq_error h
      refine accounts_of_fatal hmemory hfs hnotes (Provider.mem_sort.mp href) ?_
      cases hmetadata : (vault.provider fs).metadata ref with
      | ok metadata => rw [hmetadata] at hfatal; cases hfatal
      | error cause =>
          rw [hmetadata] at hfatal
          exact congrArg Except.error (Except.error.inj hfatal)

/-- **NO OTHER FAULT** ends a summary. -/
theorem accounts_of_summary_error (hmemory : vault.memory = []) (hfs : fs.WellFormed)
    {source : Text} {layout : Layout} {fault : Fault}
    (h : (vault.summary fs source layout).1 = .error fault) : vault.Accounts fs fault := by
  have hresult : ((vault.provider fs).summary source layout).result = .error fault := h
  cases hstubs : (vault.provider fs).stubs with
  | error cause =>
      by_cases hempty : (Query.ofSource source).isEmpty = true
      · rw [Provider.summary_result_of_isEmpty hempty] at hresult
        cases hresult
      · rw [Provider.summary_result_of_stubs_error hempty hstubs] at hresult
        obtain rfl : cause = fault := Except.error.inj hresult
        exact accounts_of_stubs_error hmemory hfs hstubs
  | ok stubs =>
      -- once all metadata has been loaded nothing can fail
      obtain ⟨refs, hnotes, hforgiving⟩ := Provider.stubs_isOk_iff.mp ⟨stubs, hstubs⟩
      rw [Provider.summary_result_eq ⟨hnotes, hforgiving, forgiving_lines hfs hnotes⟩] at hresult
      cases hresult

/-! ## Without one note -/

/-- **AS IF ABSENT**: the other notes are the readable notes of the vault without one. -/
theorem readableNotes_erase (hfs : fs.WellFormed) (h : vault.notes fs = .ok refs)
    (href : ref ∈ refs) (hholds : vault.Holds fs ref gone) :
    vault.readableNotes (fs.erase gone)
      = (vault.readableNotes fs).filter (·.path != ref.path) := by
  obtain ⟨hnotes, hlines⟩ := notes_erase hfs h href hholds
  rw [readableNotes_of_notes hnotes, readableNotes_of_notes h, List.filterMap_filter,
    List.filter_filterMap]
  refine List.filterMap_congr fun other hother => ?_
  -- several references may name one file, and all of them go with it
  by_cases hpath : other.path = ref.path
  · rw [if_neg (by simpa using hpath)]
    cases (vault.lines fs other).toOption with
    | none => rfl
    | some lines => simp [Note.ofLines, Option.filter_some, hpath]
  · rw [if_pos (by simpa using hpath), hlines other hother hpath]
    cases (vault.lines fs other).toOption with
    | none => rfl
    | some lines => simp [Note.ofLines, Option.filter_some, hpath]

/-- What converts still does without one note. -/
theorem AllConvert.erase (hfs : fs.WellFormed) (h : vault.AllConvert fs)
    (hnotes : vault.notes fs = .ok refs) (href : ref ∈ refs) (hholds : vault.Holds fs ref gone) :
    vault.AllConvert (fs.erase gone) := by
  obtain ⟨_, hnotes', hconverts⟩ := h
  obtain rfl := Except.ok.inj (hnotes.symm.trans hnotes')
  obtain ⟨hrest, hlines⟩ := notes_erase hfs hnotes href hholds
  refine ⟨_, hrest, fun other hother lines hok => ?_⟩
  obtain ⟨hmem, hpath⟩ := List.mem_filter.mp hother
  rw [hlines other hmem (by simpa using hpath)] at hok
  exact hconverts other hmem lines hok

/-- **A NOTE THAT IS NO TEXT** is not among the readable ones. -/
theorem path_ne_of_mem_readableNotes (hfs : fs.WellFormed) (h : vault.notes fs = .ok refs)
    (hholds : vault.Holds fs ref place) (hfile : fs.get? place = some (.file bytes stamp))
    (hbytes : Text.ofUtf8? bytes = none) :
    ∀ note ∈ vault.readableNotes fs, note.path ≠ ref.path := by
  intro note hnote hpath
  rw [readableNotes_of_notes h, List.mem_filterMap] at hnote
  obtain ⟨other, hother, hsome⟩ := hnote
  obtain ⟨lines, hlines, rfl⟩ := Option.map_eq_some_iff.mp hsome
  obtain ⟨place', hholds'⟩ := holds_of_mem_notes hfs h hother
  have hsame := hholds'.resolved
  rw [show other.path = ref.path from hpath, hholds.resolved] at hsame
  obtain rfl := Except.ok.inj hsame
  rcases lines_of_holds hholds' hfile with hfound | hlong
  · rw [hfound, linesOf, hbytes] at hlines
    cases hlines
  · rw [hlong] at hlines
    cases hlines

/-! ## One bad note -/

/-- **ONE BAD NOTE** in the vault, and the same vault without it:

    * a summary whose query is not empty succeeds, and the tags are told, exactly when the
      notes can be listed and the front matter of each converts; there is no other fault;
    * the notes cannot be listed exactly if folders stand too deep in one another, or the path
      of the root, of a folder or of what has the name of a note is too long, and the fault is
      one of these two;
    * if the notes can be listed and convert, the summary is that of the readable ones, and
      the tags are theirs;
    * front matter that is no mapping counts as empty;
    * behind each reference is a file, whose bytes give the lines of the note unless the
      system refuses to go that far down.  Without it the other notes contribute what they
      contributed before, and if it was no text, that was all. -/
theorem summary_despite_bad_notes (hreach : fs.WithinReach) (root : Text) :
    (∀ source layout, (∃ found, ((ofText root).summary fs source layout).1 = .ok found)
        ↔ (Query.ofSource source).isEmpty = true ∨ (ofText root).AllConvert fs)
      ∧ ((∃ found, ((ofText root).tags fs).1 = .ok found) ↔ (ofText root).AllConvert fs)
      ∧ (∀ source layout fault, ((ofText root).summary fs source layout).1 = .error fault →
          (ofText root).Accounts fs fault)
      ∧ (∀ fault, ((ofText root).tags fs).1 = .error fault → (ofText root).Accounts fs fault)
      ∧ ((ofText root).Unlisted fs ↔ (ofText root).isOutOfReach fs = true
          ∨ ∃ top, fs.locate .follow (parse root) = .ok ⟨top, some .directory⟩
            ∧ (nestsTooDeep fs top = true ∨ (ofText root).anyOverlong fs top = true))
      ∧ (∀ fault, (ofText root).notes fs = .error fault →
          fault = .tooDeep ∨ fault = .file .nameTooLong)
      ∧ ((ofText root).AllConvert fs →
          (∀ source layout, ((ofText root).summary fs source layout).1
              = .ok (Summary.ofNotes ((ofText root).readableNotes fs) (Query.ofSource source)
                  layout))
            ∧ ((ofText root).tags fs).1
              = .ok (sortTags (((ofText root).readableNotes fs).flatMap fun note =>
                  note.occurrences.map Occurrence.tag)))
      ∧ (∀ ref lines inner, Note.frontMatterLines? lines = some inner →
          (∀ entries, Yaml.load (Text.unlines inner) ≠ .ok (.map entries)) →
          (Note.ofLines ref lines).optedOut = false)
      ∧ ∀ refs, (ofText root).notes fs = .ok refs → ∀ ref ∈ refs,
          ∃ place bytes stamp, (ofText root).resolve fs ref.path = .ok place
            ∧ fs.get? place = some (.file bytes stamp)
            ∧ ((ofText root).lines fs ref = linesOf ref.path bytes
                ∨ (ofText root).lines fs ref = .error (.file .nameTooLong))
            ∧ (ofText root).readableNotes (fs.erase place)
                = ((ofText root).readableNotes fs).filter (·.path != ref.path)
            ∧ (Text.ofUtf8? bytes = none →
                (ofText root).readableNotes (fs.erase place) = (ofText root).readableNotes fs)
            ∧ ((ofText root).AllConvert fs → (ofText root).AllConvert (fs.erase place)) := by
  have hfs : fs.WellFormed := hreach.toWellFormed
  have hmemory : (ofText root).memory = [] := rfl
  refine ⟨summary_isOk_iff hmemory hfs, tags_isOk_iff hmemory hfs,
    fun _ _ _ => accounts_of_summary_error hmemory hfs,
    fun _ => accounts_of_tags_error hmemory hfs, unlisted_iff, fun _ => notes_error, ?_, ?_, ?_⟩
  · intro hall
    exact ⟨summary_eq hmemory hfs hall, tags_eq hmemory hfs hall⟩
  · intro ref lines inner hinner hload
    show Note.optsOut ((Note.properties lines).toOption.getD []) = false
    rw [Note.properties_of_no_map hinner hload]
    rfl
  · intro refs hnotes ref href
    obtain ⟨place, hholds⟩ := holds_of_mem_notes hfs hnotes href
    obtain ⟨bytes, stamp, hfile⟩ := hholds.file
    have hothers := readableNotes_erase hfs hnotes href hholds
    refine ⟨place, bytes, stamp, hholds.resolved, hfile, lines_of_holds hholds hfile, hothers,
      ?_, ?_⟩
    · intro hbytes
      rw [hothers]
      refine List.filter_eq_self.mpr fun note hnote => ?_
      simpa using path_ne_of_mem_readableNotes hfs hnotes hholds hfile hbytes note hnote
    · intro hall
      exact hall.erase hfs hnotes href hholds

/-- A directory of files that are all as old. -/
def folder (directory : Name) (files : List (Name × ByteArray)) : Files :=
  ⟨([directory], .directory) :: files.map fun file => ([directory, file.1], .file file.2 (.tick 0)),
    []⟩

/-- Three notes: `a` is no text, `b` has front matter that is no YAML, `c` has none. -/
def mixedVault : Files :=
  folder "vault".toList
    [("a.md".toList, ⟨#[255]⟩), ("b.md".toList, Text.toUtf8 "---\n[\n---\nb #t".toList),
     ("c.md".toList, Text.toUtf8 "c #t".toList)]

/-- Of the three notes `b` and `c` come out. -/
theorem mixedVault_markdown :
    mixedVault.WithinReach ∧ (ofText "vault".toList).AllConvert mixedVault
      ∧ ((ofText "vault".toList).summary mixedVault "tags: #t".toList ⟨false, false⟩).1.map
            Summary.markdown = .ok "b #t\n\n\nc #t\n\n\n".toList := by
  have hreach : mixedVault.WithinReach :=
    ⟨⟨by decide +kernel, by decide, plain_nil _, rfl⟩, by decide⟩
  have hnotes : (ofText "vault".toList).notes mixedVault
      = .ok [⟨"a.md".toList, ['a']⟩, ⟨"b.md".toList, ['b']⟩, ⟨"c.md".toList, ['c']⟩] :=
    notes_of_ascending rfl (by decide +kernel) (by decide +kernel)
      (show List.Pairwise _ _ from by decide)
  have hall : (ofText "vault".toList).AllConvert mixedVault := ⟨_, hnotes, by decide +kernel⟩
  refine ⟨hreach, hall, ?_⟩
  obtain ⟨-, -, -, -, -, -, hsucceeds, -⟩ := summary_despite_bad_notes hreach "vault".toList
  have hreadable : (ofText "vault".toList).readableNotes mixedVault
      = [Note.ofLines ⟨"b.md".toList, ['b']⟩ ["---".toList, ['['], "---".toList, "b #t".toList],
         Note.ofLines ⟨"c.md".toList, ['c']⟩ ["c #t".toList]] := by
    rw [readableNotes_of_notes hnotes]
    decide +kernel
  rw [(hsucceeds hall).1, hreadable]
  show Except.ok (Summary.markdown (Summary.ofNotes _ _ _)) = _
  have hquery : Query.ofSource "tags: #t".toList = { anyOf := ["#t".toList] } := by
    decide +kernel
  rw [markdown_ofNotes, hquery, summarize, if_neg (by decide), Fragment.aggregate, Fragment.sort,
    List.mergeSort_of_pairwise (by decide +kernel)]
  decide +kernel

/-- Two notes: `a` is dated in a thirteenth month, `b` is not dated. -/
def datedVault : Files :=
  folder "vault".toList
    [("a.md".toList, Text.toUtf8 "---\ndate: 2024-13-45\n---\n#t x\n".toList),
     ("b.md".toList, Text.toUtf8 "good #t\n".toList)]

/-- **THE EXCEPTION**: the date of `a` takes down the summary, and the list of tags, that `b`
    is in. -/
theorem datedVault_fails :
    (∀ found, ((ofText "vault".toList).summary datedVault "tags: #t".toList ⟨false, false⟩).1
        ≠ .ok found)
      ∧ ∀ found, ((ofText "vault".toList).tags datedVault).1 ≠ .ok found := by
  have hfs : datedVault.WellFormed := ⟨by decide +kernel, by decide, plain_nil _, rfl⟩
  have hnotes : (ofText "vault".toList).notes datedVault
      = .ok [⟨"a.md".toList, ['a']⟩, ⟨"b.md".toList, ['b']⟩] :=
    notes_of_ascending rfl (by decide +kernel) (by decide +kernel)
      (show List.Pairwise _ _ from by decide)
  have hnone : ¬ (ofText "vault".toList).AllConvert datedVault := by
    rintro ⟨refs, hrefs, hconverts⟩
    obtain rfl := Except.ok.inj (hnotes.symm.trans hrefs)
    exact absurd (hconverts _ List.mem_cons_self) (by decide +kernel)
  constructor
  · intro found hfound
    rcases (summary_isOk_iff rfl hfs _ _).mp ⟨found, hfound⟩ with hempty | hall
    · exact absurd hempty (by decide +kernel)
    · exact hnone hall
  · intro found hfound
    exact hnone ((tags_isOk_iff rfl hfs).mp ⟨found, hfound⟩)

end NoteDigest.Vault
