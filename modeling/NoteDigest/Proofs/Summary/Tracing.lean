import NoteDigest.Proofs.Selection
import NoteDigest.Proofs.Summary.Order
import NoteDigest.Proofs.Summary.Settling

/-! # Tracing — which notes are read, in which order

    A run tells the notes whose lines were asked for.  Which they are is settled by the
    metadata alone: those that the query wants (`wants`), in the order of their paths, each
    as often as it is listed (`toRead`).  Whether their lines can be read plays no part.

    A summary asks for the lines of these and no others (`reads_summary`), an expansion for
    what the summaries of its blocks ask for, from top to bottom (`reads_expand`).  A fatal
    failure breaks a run off, and then a beginning of it all has been asked for. -/

namespace NoteDigest

section Loading

variable {ε α β γ : Type}

/-- Items that are loaded by what they refer to are tried as what they refer to is. -/
theorem map_triedBy (load : β → Except (LoadFault ε) γ) (f : α → β) (g : α → γ → α) :
    ∀ items : List α,
      (triedBy (fun item => (load (f item)).map (g item)) items).map f
        = triedBy load (items.map f) := by
  intro items
  induction items with
  | nil => rfl
  | cons item rest ih =>
      rw [List.map_cons, triedBy, triedBy]
      cases hload : load (f item) with
      | ok found => exact congrArg (f item :: ·) ih
      | error fault =>
          cases fault with
          | unreadable => exact congrArg (f item :: ·) ih
          | fatal cause => rfl

end Loading

namespace Provider

variable {ε : Type} {provider : Provider ε} {refs : List NoteRef} {query : Query}
  {source text : Text} {layout : Layout} {stubs : List Note}

/-! ## The notes to be read -/

/-- The query wants the lines of a note: its metadata loads, it has not opted out, and its
    occurrences meet the clauses. -/
def wants (provider : Provider ε) (query : Query) (ref : NoteRef) : Bool :=
  match provider.metadata ref with
  | .ok metadata => !metadata.optedOut && query.metBy metadata.occurrences
  | .error _ => false

/-- The notes whose lines the query wants, in the order of their paths. -/
def toRead (provider : Provider ε) (query : Query) : List NoteRef :=
  match provider.refs with
  | .ok refs => (NoteRef.sort refs).filter (provider.wants query)
  | .error _ => []

theorem toRead_of_listed (hrefs : provider.refs = .ok refs) (query : Query) :
    provider.toRead query = (NoteRef.sort refs).filter (provider.wants query) := by
  rw [toRead, hrefs]

/-- They are the notes listed that the query wants, each as often as it is listed. -/
theorem perm_toRead (hrefs : provider.refs = .ok refs) (query : Query) :
    (provider.toRead query).Perm (refs.filter (provider.wants query)) := by
  rw [toRead_of_listed hrefs]
  exact (List.mergeSort_perm refs _).filter _

theorem ascending_toRead (provider : Provider ε) (query : Query) :
    Text.Ascending NoteRef.path (provider.toRead query) := by
  rw [toRead]
  split
  · rename_i refs _
    exact (Text.ascending_mergeSort NoteRef.path refs).sublist List.filter_sublist
  · exact List.Pairwise.nil

/-! ## One summary -/

/-- Stubs that load are those of the notes listed, in the order of their paths. -/
theorem eq_filterMap_of_stubs (hstubs : provider.stubs = .ok stubs) :
    ∃ refs, provider.refs = .ok refs
      ∧ stubs = (NoteRef.sort refs).filterMap provider.stub? := by
  obtain ⟨refs, hrefs, hforgiving⟩ := stubs_isOk_iff.mp ⟨stubs, hstubs⟩
  refine ⟨refs, hrefs, ?_⟩
  rw [Provider.stubs, hrefs] at hstubs
  have hloaded := (hforgiving.subset fun _ => mem_sort.mp).map Note.stub
  exact Except.ok.inj (hstubs.symm.trans (loadEach_eq_filterMap hloaded))

/-- **SELECTED AND WANTED** are the same: the stubs a query selects are those of the notes
    whose lines it wants. -/
theorem map_ref_select (hwants : query.isEmpty = false) (hstubs : provider.stubs = .ok stubs) :
    (query.select stubs).map Note.ref = provider.toRead query := by
  obtain ⟨refs, hrefs, rfl⟩ := eq_filterMap_of_stubs hstubs
  rw [Query.select_eq_filter_accepts hwants, toRead_of_listed hrefs]
  induction NoteRef.sort refs with
  | nil => rfl
  | cons ref rest ih =>
      rw [List.filterMap_cons, List.filter_cons, wants, stub?]
      cases provider.metadata ref with
      | error fault => exact ih
      | ok metadata =>
          show ((Note.stub ref metadata :: rest.filterMap provider.stub?).filter
            query.accepts).map Note.ref = if query.accepts (Note.stub ref metadata) then _ else _
          rw [List.filter_cons]
          by_cases haccepts : query.accepts (Note.stub ref metadata) = true
          · rw [if_pos haccepts, if_pos haccepts, List.map_cons, ih]
            rfl
          · rw [if_neg haccepts, if_neg haccepts]
            exact ih

theorem reads_of_isEmpty (hempty : (Query.ofSource source).isEmpty = true) :
    (provider.summary source layout).reads = [] := by
  rw [summary]
  simp only [hempty, if_true]
  rfl

/-- The notes selected are read one after the other. -/
theorem reads_of_stubs_ok (hwants : (Query.ofSource source).isEmpty = false)
    (hstubs : provider.stubs = .ok stubs) :
    (provider.summary source layout).reads
      = triedBy provider.lines (provider.toRead (Query.ofSource source)) := by
  rw [summary_of_stubs_ok (by simp [hwants]) hstubs, ← map_ref_select hwants hstubs]
  exact map_triedBy provider.lines Note.ref Note.withLines _

/-- **NO OTHERS ARE READ**, however a summary ends. -/
theorem reads_summary_isPrefix (hwants : (Query.ofSource source).isEmpty = false) :
    (provider.summary source layout).reads <+: provider.toRead (Query.ofSource source) := by
  cases hstubs : provider.stubs with
  | error cause =>
      rw [summary_of_stubs_error (by simp [hwants]) hstubs]
      exact List.nil_prefix
  | ok stubs =>
      rw [reads_of_stubs_ok hwants hstubs]
      exact triedBy_isPrefix provider.lines _

/-- **ALL OF THEM ARE READ** for a summary that ends with a result. -/
theorem reads_summary {summary : Summary} (hwants : (Query.ofSource source).isEmpty = false)
    (hresult : (provider.summary source layout).result = .ok summary) :
    (provider.summary source layout).reads = provider.toRead (Query.ofSource source) := by
  have hempty : ¬ (Query.ofSource source).isEmpty = true := by simp [hwants]
  cases hstubs : provider.stubs with
  | error cause =>
      rw [summary_result_of_stubs_error hempty hstubs] at hresult
      cases hresult
  | ok stubs =>
      rw [summary_of_stubs_ok hempty hstubs, fillSelected] at hresult ⊢
      -- the lines of all that were selected have been loaded or left out
      cases hfilled : loadEach provider.fill ((Query.ofSource source).select stubs) with
      | error cause => rw [hfilled] at hresult; cases hresult
      | ok notes =>
          show (triedBy provider.fill _).map Note.ref = _
          rw [triedBy_eq_self (loadEach_isOk_iff.mp ⟨notes, hfilled⟩), map_ref_select hwants hstubs]

/-! ## The summaries of a note -/

/-- What the blocks of a text have read, each for itself. -/
def readsOfBlocks (provider : Provider ε) (text : Text) (layout : Layout) : List NoteRef :=
  (Directive.blocks text).flatMap fun block => (provider.summary block.body layout).reads

theorem reads_expand_isPrefix (provider : Provider ε) (text : Text) (layout : Layout) :
    (provider.expand text layout).reads <+: provider.readsOfBlocks text layout := by
  have hparts := Run.reads_sequence_isPrefix ((Directive.blocks text).map (provider.part layout))
  rw [List.flatMap_map] at hparts
  rw [expand_eq_splice]
  exact hparts

/-- **FROM TOP TO BOTTOM**: an expansion that ends with a result has read what the summary of
    each block reads. -/
theorem reads_expand {expanded : Text}
    (hresult : (provider.expand text layout).result = .ok expanded) :
    (provider.expand text layout).reads = provider.readsOfBlocks text layout := by
  rw [expand_eq_splice] at hresult ⊢
  cases hparts : (Run.sequence ((Directive.blocks text).map (provider.part layout))).result with
  | error cause =>
      rw [Run.map, hparts] at hresult
      cases hresult
  | ok parts =>
      have hreads := Run.reads_sequence hparts
      rw [List.flatMap_map] at hreads
      exact hreads

/-! ## The discipline -/

/-- **NOTES ARE READ IN THE ORDER OF THEIR PATHS, AND ONLY IF THEY ARE WANTED**: those listed
    whose metadata loads, that have not opted out and that meet the clauses, each as often as
    it is listed; none for a query that wants no lines.  For an expansion this happens block
    by block.  A run that a fatal failure breaks off has read a beginning of it, and there is
    none when what fails to load is unreadable, no worse. -/
theorem reads_in_order (provider : Provider ε) (layout : Layout) :
    (∀ refs query, provider.refs = .ok refs →
        (provider.toRead query).Perm (refs.filter (provider.wants query))
          ∧ Text.Ascending NoteRef.path (provider.toRead query))
      ∧ (∀ source, (Query.ofSource source).isEmpty = true →
          (provider.summary source layout).reads = [])
      ∧ (∀ source, (Query.ofSource source).isEmpty = false →
          (provider.summary source layout).reads <+: provider.toRead (Query.ofSource source)
            ∧ ∀ summary, (provider.summary source layout).result = .ok summary →
              (provider.summary source layout).reads = provider.toRead (Query.ofSource source))
      ∧ (∀ text, (provider.expand text layout).reads <+: provider.readsOfBlocks text layout
          ∧ ∀ expanded, (provider.expand text layout).result = .ok expanded →
              (provider.expand text layout).reads = provider.readsOfBlocks text layout)
      ∧ ∀ refs, provider.Serves refs →
          (∀ source, ∃ summary, (provider.summary source layout).result = .ok summary)
            ∧ ∀ text, ∃ expanded, (provider.expand text layout).result = .ok expanded := by
  refine ⟨?_, ?_, ?_, ?_, ?_⟩
  · intro refs query hrefs
    exact ⟨perm_toRead hrefs query, ascending_toRead provider query⟩
  · intro source hempty
    exact reads_of_isEmpty hempty
  · intro source hwants
    exact ⟨reads_summary_isPrefix hwants, fun summary hresult => reads_summary hwants hresult⟩
  · intro text
    exact ⟨reads_expand_isPrefix provider text layout, fun expanded hresult => reads_expand hresult⟩
  · intro refs hserves
    refine ⟨fun source => ⟨_, summary_result_eq hserves source layout⟩, fun text => ?_⟩
    exact exists_expanded hserves text layout

/-- Three blocks, the second of which wants no lines. -/
def threefoldText : Text :=
  ("\x60\x60\x60add-summary\ntags: #t\n\x60\x60\x60\n\x60\x60\x60add-summary\nexclude: #t\n\x60\x60\x60\n"
    ++ "\x60\x60\x60add-summary\ntags: #t\n\x60\x60\x60").toList

/-- For the first and for the third block the lines of `a`, `b` and `c` are asked for, though
    those of `b` cannot be read. -/
theorem shelf_reads :
    shelf.refs = .ok shelfRefs ∧ shelf.Serves shelfRefs
      ∧ (Query.ofSource "exclude: #t".toList).isEmpty = true
      ∧ (Query.ofSource "tags: #t".toList).isEmpty = false
      ∧ (shelf.expand threefoldText ⟨false, false⟩).reads.map NoteRef.name
          = [['a'], ['b'], ['c'], ['a'], ['b'], ['c']] := by
  have hnone : (Query.ofSource "exclude: #t".toList).isEmpty = true := by decide +kernel
  have hwants : (Query.ofSource "tags: #t".toList).isEmpty = false := by decide +kernel
  refine ⟨rfl, serves_shelf, hnone, hwants, ?_⟩
  obtain ⟨-, hempty, hsummary, hexpand, hresults⟩ := reads_in_order shelf ⟨false, false⟩
  obtain ⟨hsummaries, hexpansions⟩ := hresults shelfRefs serves_shelf
  obtain ⟨summary, hresult⟩ := hsummaries "tags: #t".toList
  obtain ⟨expanded, hexpanded⟩ := hexpansions threefoldText
  have hblocks : Directive.blocks threefoldText
      = [⟨"tags: #t".toList, 0, 2⟩, ⟨"exclude: #t".toList, 3, 5⟩, ⟨"tags: #t".toList, 6, 8⟩] := by
    decide +kernel
  rw [(hexpand threefoldText).2 expanded hexpanded, readsOfBlocks, hblocks]
  simp only [List.flatMap_cons, List.flatMap_nil]
  rw [(hsummary _ hwants).2 summary hresult, hempty _ hnone, toRead_of_listed rfl, sort_shelfRefs]
  decide +kernel

end Provider
end NoteDigest
