import Mathlib.Data.List.Nodup
import NoteDigest.Proofs.Summary.Loading
import NoteDigest.Proofs.Text.Sorting

/-! # Staging — a provider's summary is the summary of notes in memory

    `Provider.summary` selects on metadata alone and loads lines afterwards, and either
    load may fail.  It yields what `summarize` yields of all notes that load completely:
    selection does not look at lines, so selecting and loading commute
    (`select_loaded_eq`), and both keep the order of the sorted references. -/

namespace NoteDigest

/-! ## Summaries of notes in memory -/

/-- The summary of notes in memory, with its message and counts. -/
def Summary.ofNotes (notes : List Note) (query : Query) (layout : Layout) : Summary :=
  if query.isEmpty then .nothing
  else .ofFragments (query.fragments layout (query.select notes)) (query.select notes).length

theorem markdown_ofFragments (fragments : List Fragment) (notes : Nat) :
    (Summary.ofFragments fragments notes).markdown = Fragment.aggregate fragments := by
  show (if (Fragment.aggregate fragments).isEmpty then Summary.nothing else _).markdown = _
  cases hmarkdown : Fragment.aggregate fragments with
  | nil => rfl
  | cons c rest => rfl

theorem markdown_ofNotes (notes : List Note) (query : Query) (layout : Layout) :
    (Summary.ofNotes notes query layout).markdown = summarize notes query layout := by
  rw [Summary.ofNotes, summarize]
  by_cases hempty : query.isEmpty = true
  · rw [if_pos hempty, if_pos hempty]
    rfl
  · rw [if_neg hempty, if_neg hempty]
    exact markdown_ofFragments _ _

namespace Provider

variable {ε : Type} {provider : Provider ε} {refs : List NoteRef}

/-! ## What a provider serves -/

/-- The whole note behind a reference, if both its metadata and its lines load. -/
def document? (provider : Provider ε) (ref : NoteRef) : Option Note :=
  match provider.metadata ref, provider.lines ref with
  | .ok metadata, .ok lines => some ((Note.stub ref metadata).withLines lines)
  | _, _ => none

/-- The provider lists these references, and what fails to load of them is unreadable, no
    worse. -/
structure Serves (provider : Provider ε) (refs : List NoteRef) : Prop where
  listed : provider.refs = .ok refs
  metadata : Forgiving provider.metadata refs
  lines : Forgiving provider.lines refs

theorem ref_of_document? {ref : NoteRef} {note : Note}
    (h : provider.document? ref = some note) : note.ref = ref := by
  rw [document?] at h
  split at h
  · rw [← Option.some.inj h]
    rfl
  · cases h

theorem path_of_document? {ref : NoteRef} {note : Note}
    (h : provider.document? ref = some note) : note.path = ref.path :=
  congrArg NoteRef.path (ref_of_document? h)

/-- The stub of a note, if its metadata loads. -/
def stub? (provider : Provider ε) (ref : NoteRef) : Option Note :=
  ((provider.metadata ref).map (Note.stub ref)).toOption

/-- The whole note is its stub with the lines put in. -/
theorem document?_eq_bind (provider : Provider ε) (ref : NoteRef) :
    provider.document? ref
      = (provider.stub? ref).bind fun note => (provider.fill note).toOption := by
  rw [document?, stub?]
  cases hmeta : provider.metadata ref with
  | error fault => rfl
  | ok metadata =>
      show _ = (provider.fill (Note.stub ref metadata)).toOption
      rw [fill, show (Note.stub ref metadata).ref = ref from rfl]
      cases provider.lines ref with
      | error fault => rfl
      | ok lines => rfl

theorem ref_of_stub? {ref : NoteRef} {note : Note} (h : provider.stub? ref = some note) :
    note.ref = ref := by
  rw [stub?] at h
  cases hmeta : provider.metadata ref with
  | error fault => rw [hmeta] at h; cases h
  | ok metadata =>
      rw [hmeta] at h
      rw [← Option.some.inj h]
      rfl

/-! ## The two stages -/

theorem mem_sort {ref : NoteRef} : ref ∈ NoteRef.sort refs ↔ ref ∈ refs :=
  List.mem_mergeSort

theorem stubs_eq (h : provider.Serves refs) :
    provider.stubs = .ok ((NoteRef.sort refs).filterMap provider.stub?) := by
  rw [stubs, h.listed]
  exact loadEach_eq_filterMap ((h.metadata.subset fun _ => mem_sort.mp).map Note.stub)

/-- The first stage succeeds exactly when no metadata fails fatally. -/
theorem stubs_isOk_iff :
    (∃ stubs, provider.stubs = .ok stubs)
      ↔ ∃ refs, provider.refs = .ok refs ∧ Forgiving provider.metadata refs := by
  rw [stubs]
  cases provider.refs with
  | error cause =>
      refine iff_of_false ?_ ?_
      · rintro ⟨stubs, hstubs⟩
        cases hstubs
      · rintro ⟨refs, hrefs, -⟩
        cases hrefs
  | ok refs =>
      refine Iff.trans loadEach_isOk_iff ?_
      constructor
      · intro h
        exact ⟨refs, rfl, h.of_map.subset fun _ => mem_sort.mpr⟩
      · rintro ⟨_, hrefs, h⟩
        obtain rfl := Except.ok.inj hrefs
        exact (h.subset fun _ => mem_sort.mp).map Note.stub

/-- Whether notes can be filled is a matter of the lines of what they refer to. -/
theorem forgiving_fill_iff {notes : List Note} :
    Forgiving provider.fill notes ↔ Forgiving provider.lines (notes.map Note.ref) := by
  rw [Forgiving, Forgiving, List.forall_mem_map]
  constructor
  · intro h
    exact Forgiving.of_map h
  · intro h
    exact Forgiving.map h Note.withLines

/-- A query selects a note with its lines or without them. -/
theorem selects_of_fill {query : Query} {note filled : Note}
    (h : provider.fill note = .ok filled) : query.selects filled = query.selects note := by
  rw [fill] at h
  cases hlines : provider.lines note.ref with
  | error fault => rw [hlines] at h; cases h
  | ok lines =>
      rw [hlines] at h
      rw [← Except.ok.inj h]
      rfl

/-- **SELECTING AND LOADING COMMUTE**: the stubs selected, once loaded, are the loaded
    notes that are selected. -/
theorem select_loaded_eq (provider : Provider ε) (query : Query) (stubs : List Note) :
    (query.select stubs).filterMap (fun note => (provider.fill note).toOption)
      = query.select (stubs.filterMap fun note => (provider.fill note).toOption) := by
  rw [Query.select, Query.select, List.filterMap_filter, List.filter_filterMap]
  refine List.filterMap_congr fun note _ => ?_
  cases hfill : provider.fill note with
  | error fault => simp [Except.toOption]
  | ok filled =>
      show (if query.selects note = true then some filled else none)
        = (some filled).filter query.selects
      rw [Option.filter_some, selects_of_fill hfill]

/-- The selected stubs of some notes, once loaded, are the whole notes that are selected. -/
theorem filled_eq_select (provider : Provider ε) (query : Query) (refs : List NoteRef) :
    (query.select (refs.filterMap provider.stub?)).filterMap
        (fun note => (provider.fill note).toOption)
      = query.select (refs.filterMap provider.document?) := by
  rw [select_loaded_eq, List.filterMap_filterMap]
  refine congrArg query.select (List.filterMap_congr fun ref _ => ?_)
  exact (document?_eq_bind provider ref).symm

theorem summary_result_of_isEmpty {source : Text} {layout : Layout}
    (hempty : (Query.ofSource source).isEmpty = true) :
    (provider.summary source layout).result = .ok .nothing := by
  rw [summary]
  simp only [hempty, if_true]
  rfl

theorem summary_result_of_stubs_error {source : Text} {layout : Layout} {cause : ε}
    (hempty : ¬ (Query.ofSource source).isEmpty = true) (hstubs : provider.stubs = .error cause) :
    (provider.summary source layout).result = .error cause := by
  rw [summary]
  simp only [hempty, Bool.false_eq_true, if_false, hstubs]

/-- The notes that the two stages load for a query. -/
def loaded (provider : Provider ε) (query : Query) : Except ε (List Note) := do
  loadEach provider.fill (query.select (← provider.stubs))

/-- A summary is made of the notes that are loaded. -/
theorem summary_result_of_loaded {source : Text} (layout : Layout)
    (hempty : ¬ (Query.ofSource source).isEmpty = true) :
    (provider.summary source layout).result
      = (provider.loaded (Query.ofSource source)).map fun notes =>
          .ofFragments ((Query.ofSource source).fragments layout notes) notes.length := by
  rw [summary, loaded]
  simp only [hempty, Bool.false_eq_true, if_false]
  cases provider.stubs with
  | error cause => rfl
  | ok stubs =>
      simp only [bind, Except.bind]
      cases loadEach provider.fill ((Query.ofSource source).select stubs) <;> rfl

/-- **WHAT IS LOADED** are the notes selected among those that load completely, in the order
    of their paths. -/
theorem loaded_eq (h : provider.Serves refs) (query : Query) :
    provider.loaded query
      = .ok (query.select ((NoteRef.sort refs).filterMap provider.document?)) := by
  -- what is selected was listed, so its lines load or are unreadable
  have hselected : ∀ note ∈ query.select ((NoteRef.sort refs).filterMap provider.stub?),
      note.ref ∈ refs := by
    intro note hnote
    obtain ⟨ref, href, hstub⟩ := List.mem_filterMap.mp (List.mem_filter.mp hnote).1
    rw [ref_of_stub? hstub]
    exact mem_sort.mp href
  have hlines : Forgiving provider.fill (query.select ((NoteRef.sort refs).filterMap
      provider.stub?)) :=
    forgiving_fill_iff.mpr (h.lines.subset (List.forall_mem_map.mpr hselected))
  rw [loaded, stubs_eq h, ← filled_eq_select]
  exact loadEach_eq_filterMap hlines

/-- **THE SUMMARY** of a provider is that of the notes that load completely, in the order
    of their paths. -/
theorem summary_result_eq (h : provider.Serves refs) (source : Text) (layout : Layout) :
    (provider.summary source layout).result
      = .ok (Summary.ofNotes ((NoteRef.sort refs).filterMap provider.document?)
          (Query.ofSource source) layout) := by
  by_cases hempty : (Query.ofSource source).isEmpty = true
  · rw [summary_result_of_isEmpty hempty, Summary.ofNotes, if_pos hempty]
  · rw [summary_result_of_loaded layout hempty, loaded_eq h, Summary.ofNotes, if_neg hempty]
    rfl

/-! ## What a summary is made of -/

/-- The provider lists a note, and both its metadata and its lines load. -/
def Delivers (provider : Provider ε) (note : Note) : Prop :=
  ∃ refs, provider.refs = .ok refs ∧ note.ref ∈ refs ∧ provider.document? note.ref = some note

/-- What the first stage leaves is the stub of a note that is listed. -/
theorem exists_of_mem_stubs {stubs : List Note} (hstubs : provider.stubs = .ok stubs) {note : Note}
    (hnote : note ∈ stubs) :
    ∃ refs ref metadata, provider.refs = .ok refs ∧ ref ∈ refs
      ∧ provider.metadata ref = .ok metadata ∧ note = Note.stub ref metadata := by
  obtain ⟨refs, hrefs, -⟩ := stubs_isOk_iff.mp ⟨stubs, hstubs⟩
  rw [Provider.stubs, hrefs] at hstubs
  obtain ⟨ref, href, hload⟩ := exists_of_mem_loadEach hstubs hnote
  cases hmetadata : provider.metadata ref with
  | error fault => rw [hmetadata] at hload; cases hload
  | ok metadata =>
      rw [hmetadata] at hload
      exact ⟨refs, ref, metadata, hrefs, mem_sort.mp href, hmetadata, (Except.ok.inj hload).symm⟩

/-- **ONLY WHAT IS DELIVERED** is loaded. -/
theorem delivers_of_loaded {query : Query} {notes : List Note}
    (hloaded : provider.loaded query = .ok notes) {filled : Note} (hfilled : filled ∈ notes) :
    provider.Delivers filled := by
  cases hstubs : provider.stubs with
  | error cause => rw [loaded, hstubs] at hloaded; cases hloaded
  | ok stubs =>
      rw [loaded, hstubs] at hloaded
      obtain ⟨note, hselected, hfill⟩ := exists_of_mem_loadEach hloaded hfilled
      obtain ⟨refs, ref, metadata, hrefs, href, hmetadata, rfl⟩ :=
        exists_of_mem_stubs hstubs (List.mem_filter.mp hselected).1
      have hstub : provider.stub? ref = some (Note.stub ref metadata) := by
        rw [stub?, hmetadata]
        rfl
      have hdocument : provider.document? ref = some filled := by
        rw [document?_eq_bind, hstub, Option.bind_some, hfill]
        rfl
      have hsame : filled.ref = ref := ref_of_document? hdocument
      exact ⟨refs, hrefs, hsame ▸ href, hsame ▸ hdocument⟩

/-- What the second stage makes of the notes selected. -/
def fillSelected (provider : Provider ε) (query : Query) (layout : Layout) (selected : List Note) :
    Run ε Summary :=
  ⟨(loadEach provider.fill selected).map fun notes =>
      .ofFragments (query.fragments layout notes) notes.length,
    provider.probes, (triedBy provider.fill selected).map Note.ref⟩

theorem summary_of_stubs_ok {source : Text} {layout : Layout} {stubs : List Note}
    (hempty : ¬ (Query.ofSource source).isEmpty = true) (hstubs : provider.stubs = .ok stubs) :
    provider.summary source layout
      = provider.fillSelected (Query.ofSource source) layout
          ((Query.ofSource source).select stubs) := by
  rw [summary, fillSelected]
  simp only [hempty, Bool.false_eq_true, if_false, hstubs]
  cases loadEach provider.fill ((Query.ofSource source).select stubs) <;> rfl

/-- **A SUMMARY** is that nothing was found, or it is made of the fragments of notes that
    are delivered. -/
theorem of_summary_result {source : Text} {layout : Layout} {summary : Summary}
    (h : (provider.summary source layout).result = .ok summary) :
    summary = .nothing ∨ ∃ notes : List Note, (∀ note ∈ notes, provider.Delivers note)
      ∧ summary = .ofFragments ((Query.ofSource source).fragments layout notes)
          notes.length := by
  by_cases hempty : (Query.ofSource source).isEmpty = true
  · rw [summary_result_of_isEmpty hempty] at h
    exact Or.inl (Except.ok.inj h).symm
  rw [summary_result_of_loaded layout hempty] at h
  cases hloaded : provider.loaded (Query.ofSource source) with
  | error cause => rw [hloaded] at h; cases h
  | ok notes =>
      rw [hloaded] at h
      exact Or.inr ⟨notes, fun note => delivers_of_loaded hloaded, (Except.ok.inj h).symm⟩

/-! ## What is tried -/

/-- Only notes that are listed are tried. -/
theorem mem_refs_of_mem_probes {ref : NoteRef} (h : ref ∈ provider.probes) :
    ∃ refs, provider.refs = .ok refs ∧ ref ∈ refs := by
  rw [probes] at h
  split at h
  · rename_i refs hrefs
    exact ⟨refs, hrefs, mem_sort.mp (mem_of_mem_triedBy h)⟩
  · cases h

theorem mem_probes_of_summary {source : Text} {layout : Layout} {ref : NoteRef}
    (h : ref ∈ (provider.summary source layout).probes) : ref ∈ provider.probes := by
  by_cases hempty : (Query.ofSource source).isEmpty = true
  · rw [summary] at h
    simp only [hempty, if_true] at h
    cases h
  cases hstubs : provider.stubs with
  | error cause =>
      rw [summary] at h
      simpa only [hempty, Bool.false_eq_true, if_false, hstubs] using h
  | ok stubs =>
      rw [summary_of_stubs_ok hempty hstubs] at h
      exact h

/-! ## Failing loads -/

/-- The provider when the metadata of some notes and the lines of some others cannot be
    read. -/
def failing (provider : Provider ε) (noMetadata noLines : NoteRef → Bool) : Provider ε where
  refs := provider.refs
  metadata := fun ref => if noMetadata ref then .error .unreadable else provider.metadata ref
  lines := fun ref => if noLines ref then .error .unreadable else provider.lines ref

/-- More unreadable notes are no fatal failures. -/
theorem serves_failing (h : provider.Serves refs) (noMetadata noLines : NoteRef → Bool) :
    (provider.failing noMetadata noLines).Serves refs :=
  ⟨h.listed, h.metadata.unreadable noMetadata, h.lines.unreadable noLines⟩

/-- A failed load takes away its own note. -/
theorem document?_failing (provider : Provider ε) (noMetadata noLines : NoteRef → Bool)
    (ref : NoteRef) :
    (provider.failing noMetadata noLines).document? ref
      = (provider.document? ref).filter fun note =>
          !(noMetadata note.ref || noLines note.ref) := by
  have hmeta : (provider.failing noMetadata noLines).metadata ref
      = if noMetadata ref then .error .unreadable else provider.metadata ref := rfl
  have hlines : (provider.failing noMetadata noLines).lines ref
      = if noLines ref then .error .unreadable else provider.lines ref := rfl
  rw [document?, document?, hmeta, hlines]
  by_cases hm : noMetadata ref = true
  · rw [if_pos hm]
    cases provider.metadata ref <;> cases provider.lines ref <;>
      simp [Option.filter_some, Note.ref, Note.stub, Note.withLines, hm]
  · rw [if_neg hm]
    by_cases hl : noLines ref = true
    · rw [if_pos hl]
      cases provider.metadata ref <;> cases provider.lines ref <;>
        simp [Option.filter_some, Note.ref, Note.stub, Note.withLines, hl]
    · rw [if_neg hl]
      cases provider.metadata ref <;> cases provider.lines ref <;>
        simp [Option.filter_some, Note.ref, Note.stub, Note.withLines, hm, hl]

/-! ## The refinement -/

/-- With distinct paths there is one list of whole notes in the order of their paths. -/
theorem documents_eq (hpaths : (refs.map NoteRef.path).Nodup) {documents : List Note}
    (hperm : documents.Perm (refs.filterMap provider.document?))
    (hasc : Text.Ascending Note.path documents) :
    documents = (NoteRef.sort refs).filterMap provider.document? := by
  have hsorted : Text.Ascending NoteRef.path (NoteRef.sort refs) :=
    Text.ascending_mergeSort NoteRef.path refs
  have hnodup : (refs.filterMap provider.document?).Pairwise
      fun a b => a.path ≠ b.path := by
    refine List.Pairwise.filterMap provider.document? ?_ (List.pairwise_map.mp hpaths)
    intro ref ref' hne note hnote note' hnote'
    rw [path_of_document? hnote, path_of_document? hnote']
    exact hne
  have hkeys : (documents.map Note.path).Nodup :=
    (hperm.map Note.path).nodup_iff.mpr (List.pairwise_map.mpr hnodup)
  have hinj : ∀ a ∈ documents, ∀ b ∈ documents, a.path = b.path → a = b :=
    fun a ha b hb => List.inj_on_of_nodup_map hkeys ha hb
  refine Text.eq_of_perm_of_ascending Note.path hinj ?_ hasc ?_
  · exact hperm.trans ((List.mergeSort_perm refs _).filterMap provider.document?).symm
  · exact Text.ascending_filterMap NoteRef.path Note.path provider.document?
      (fun ref note => path_of_document?) hsorted

theorem markdown_eq_summarize (h : provider.Serves refs)
    (hpaths : (refs.map NoteRef.path).Nodup) {documents : List Note}
    (hperm : documents.Perm (refs.filterMap provider.document?))
    (hasc : Text.Ascending Note.path documents) (source : Text) (layout : Layout) :
    (provider.summary source layout).result.map Summary.markdown
      = .ok (summarize documents (Query.ofSource source) layout) := by
  rw [summary_result_eq h, documents_eq hpaths hperm hasc, ← markdown_ofNotes]
  rfl

/-- **REFINEMENT**: the markdown of a provider is that of the notes in memory which load
    completely, sorted by path.  A load that fails takes its own note out of them and
    leaves the others as they are. -/
theorem summary_refines_summarize (h : provider.Serves refs)
    (hpaths : (refs.map NoteRef.path).Nodup) {documents : List Note}
    (hperm : documents.Perm (refs.filterMap provider.document?))
    (hasc : Text.Ascending Note.path documents) (source : Text) (layout : Layout) :
    (provider.summary source layout).result.map Summary.markdown
        = .ok (summarize documents (Query.ofSource source) layout)
      ∧ ∀ noMetadata noLines : NoteRef → Bool,
          ((provider.failing noMetadata noLines).summary source layout).result.map
              Summary.markdown
            = .ok (summarize
                (documents.filter fun note => !(noMetadata note.ref || noLines note.ref))
                (Query.ofSource source) layout) := by
  refine ⟨markdown_eq_summarize h hpaths hperm hasc source layout, ?_⟩
  intro noMetadata noLines
  have hfiltered : (refs.filterMap (provider.failing noMetadata noLines).document?)
      = (refs.filterMap provider.document?).filter
          fun note => !(noMetadata note.ref || noLines note.ref) := by
    rw [List.filter_filterMap]
    exact List.filterMap_congr fun ref _ => document?_failing provider noMetadata noLines ref
  refine markdown_eq_summarize (serves_failing h noMetadata noLines) hpaths ?_
    (hasc.sublist List.filter_sublist) source layout
  rw [hfiltered]
  exact hperm.filter _

/-- The references of four notes, out of order. -/
def shelfRefs : List NoteRef :=
  [⟨"c.md".toList, ['c']⟩, ⟨"a.md".toList, ['a']⟩, ⟨"d.md".toList, ['d']⟩,
   ⟨"b.md".toList, ['b']⟩]

/-- Four notes of one line each: `d` has no metadata, `b` has no lines. -/
def shelf : Provider Empty where
  refs := .ok shelfRefs
  metadata := fun ref =>
    if ref.name == ['d'] then .error .unreadable
    else .ok ⟨[Occurrence.on 0 "#t".toList], false⟩
  lines := fun ref =>
    if ref.name == ['b'] then .error .unreadable else .ok [ref.name ++ " #t".toList]

/-- A note of the shelf with its line. -/
def shelved (name : Text) : Note :=
  { path := name ++ ".md".toList, name := name, lines := [name ++ " #t".toList]
    occurrences := [Occurrence.on 0 "#t".toList] }

/-- Of the four notes `a` and `c` come out, in order; `b` and `d` leave no trace. -/
theorem shelf_markdown :
    shelf.Serves shelfRefs ∧ (shelfRefs.map NoteRef.path).Nodup
      ∧ [shelved ['a'], shelved ['c']].Perm (shelfRefs.filterMap shelf.document?)
      ∧ Text.Ascending Note.path [shelved ['a'], shelved ['c']]
      ∧ (shelf.summary "tags: #t".toList ⟨false, false⟩).result.map Summary.markdown
          = .ok "a #t\n\n\nc #t\n\n\n".toList := by
  have hserves : shelf.Serves shelfRefs :=
    ⟨rfl, fun _ _ cause => cause.elim, fun _ _ cause => cause.elim⟩
  have hpaths : (shelfRefs.map NoteRef.path).Nodup := by decide
  have hperm : [shelved ['a'], shelved ['c']].Perm (shelfRefs.filterMap shelf.document?) :=
    List.Perm.swap _ _ _
  have hasc : Text.Ascending Note.path [shelved ['a'], shelved ['c']] :=
    (List.pairwise_pair).mpr (by decide)
  refine ⟨hserves, hpaths, hperm, hasc, ?_⟩
  rw [(summary_refines_summarize hserves hpaths hperm hasc _ _).1]
  have hquery : Query.ofSource "tags: #t".toList = { anyOf := ["#t".toList] } := by
    decide +kernel
  rw [hquery, summarize, if_neg (by decide), Fragment.aggregate, Fragment.sort,
      List.mergeSort_of_pairwise (by decide)]
  decide

end Provider
end NoteDigest
