import NoteDigest.Proofs.Summary.NormalForm
import NoteDigest.Proofs.Summary.Tracing

/-! # Counting — what a summary tells of itself

    A summary has markdown, a mark that it is empty, a message and two counts.  Whether it is
    empty is read off the markdown, while the counts come from the fragments and the notes it
    is made of.  They go together all the same, for no fragment is an empty text and without
    notes there are no fragments (`coherent_ofFragments`).

    A summary comes about exactly when nothing that has to be loaded fails fatally
    (`summary_isOk_iff`).  If it is not empty, the notes counted are those that load completely
    and are selected, and the fragments counted are the pairs of such a note and an occurrence
    that is wanted and on a line of the note (`summary_fields_coherent`). -/

namespace NoteDigest

namespace Summary

/-- **COHERENT**: a summary is empty if it has no markdown, if it counts no fragments, if it
    counts no notes, and if it has the message; and only then it has one. -/
structure Coherent (found : Summary) : Prop where
  markdown : found.empty = true ↔ found.markdown = []
  fragmentCount : found.empty = true ↔ found.fragmentCount = 0
  noteCount : found.empty = true ↔ found.noteCount = 0
  message : found.empty = true ↔ found.message = some emptyMessage
  silent : found.empty = false → found.message = none

theorem coherent_nothing : nothing.Coherent where
  markdown := iff_of_true rfl rfl
  fragmentCount := iff_of_true rfl rfl
  noteCount := iff_of_true rfl rfl
  message := iff_of_true rfl rfl
  silent := fun h => nomatch h

end Summary

/-! ## Summaries of notes -/

/-- The pairs of a note and one of its occurrences. -/
def occurrencePairs (notes : List Note) : List (Note × Occurrence) :=
  notes.flatMap fun note => note.occurrences.map fun o => (note, o)

theorem perm_occurrencePairs {notes others : List Note} (h : notes.Perm others) :
    (occurrencePairs notes).Perm (occurrencePairs others) :=
  h.flatMap_right _

/-- There is a fragment for each pair whose occurrence is wanted and on a line of the note. -/
theorem length_fragments_eq_countP (query : Query) (layout : Layout) (notes : List Note) :
    (query.fragments layout notes).length
      = (occurrencePairs notes).countP fun (note, o) =>
          Tag.anyCovers query.wanted o.tag && decide (o.first < note.lines.length) := by
  rw [length_fragments_eq_sum, occurrencePairs, List.countP_flatMap]
  refine congrArg List.sum (List.map_congr_left fun note _ => ?_)
  rw [Function.comp_apply, List.countP_map]
  refine List.countP_congr fun o _ => ?_
  rw [Query.draws, ← Query.anyCovers_wanted]
  rfl

namespace Summary

variable {query : Query} {layout : Layout} {notes : List Note}

/-- **COHERENT** is what is made of notes: no fragment is an empty text, and without notes
    there are none. -/
theorem coherent_ofFragments (query : Query) (layout : Layout) (notes : List Note) :
    (ofFragments (query.fragments layout notes) notes.length).Coherent := by
  have htexts : ∀ f ∈ query.fragments layout notes, f.text ≠ [] :=
    fun f hf => text_ne_nil_of_mem_fragments hf
  by_cases hne : query.fragments layout notes = []
  · rw [hne, ofFragments_nil]
    exact coherent_nothing
  · have hnotes : notes.length ≠ 0 := by
      intro hzero
      rw [List.eq_nil_of_length_eq_zero hzero] at hne
      exact hne rfl
    rw [ofFragments_of_ne_nil htexts hne]
    constructor
    · exact iff_of_false Bool.false_ne_true fun hnil => hne ((aggregate_eq_nil_iff htexts).mp hnil)
    · exact iff_of_false Bool.false_ne_true fun hzero => hne (List.eq_nil_of_length_eq_zero hzero)
    · exact iff_of_false Bool.false_ne_true hnotes
    · exact iff_of_false Bool.false_ne_true fun hmessage => nomatch hmessage
    · exact fun _ => rfl

theorem empty_ofFragments_iff {count : Nat} :
    (ofFragments (query.fragments layout notes) count).empty = true
      ↔ query.fragments layout notes = [] := by
  constructor
  · intro hempty
    by_contra hne
    rw [ofFragments_of_ne_nil (fun f hf => text_ne_nil_of_mem_fragments hf) hne] at hempty
    cases hempty
  · intro hnil
    rw [hnil, ofFragments_nil]
    rfl

/-- A summary that is not empty counts what it is made of. -/
theorem counts_ofFragments {count : Nat}
    (h : (ofFragments (query.fragments layout notes) count).empty = false) :
    (ofFragments (query.fragments layout notes) count).noteCount = count
      ∧ (ofFragments (query.fragments layout notes) count).fragmentCount
        = (query.fragments layout notes).length := by
  have hne : query.fragments layout notes ≠ [] := by
    intro hnil
    rw [empty_ofFragments_iff.mpr hnil] at h
    cases h
  rw [ofFragments_of_ne_nil (fun f hf => text_ne_nil_of_mem_fragments hf) hne]
  exact ⟨rfl, rfl⟩

end Summary

/-! ## Summaries of a provider -/

namespace Provider

variable {ε : Type} {provider : Provider ε} {refs : List NoteRef} {query : Query}
  {source : Text} {layout : Layout}

/-- The notes that a query selects among those that load completely, as often as they are
    listed. -/
def documents (provider : Provider ε) (query : Query) (refs : List NoteRef) : List Note :=
  query.select (refs.filterMap provider.document?)

/-- What is loaded are these notes, in the order of their paths. -/
theorem perm_documents_of_loaded {notes : List Note} (h : provider.loaded query = .ok notes) :
    ∃ refs, provider.refs = .ok refs ∧ notes.Perm (provider.documents query refs) := by
  cases hstubs : provider.stubs with
  | error cause => rw [loaded, hstubs] at h; cases h
  | ok stubs =>
      obtain ⟨refs, hrefs, rfl⟩ := eq_filterMap_of_stubs hstubs
      refine ⟨refs, hrefs, ?_⟩
      have hfilled : loadEach provider.fill
          (query.select ((NoteRef.sort refs).filterMap provider.stub?)) = .ok notes := by
        rw [loaded, hstubs] at h
        exact h
      rw [loadEach_eq_filterMap (loadEach_isOk_iff.mp ⟨notes, hfilled⟩), filled_eq_select]
        at hfilled
      rw [← Except.ok.inj hfilled]
      exact ((List.mergeSort_perm refs _).filterMap _).filter _

/-- Notes are loaded exactly when no metadata fails fatally, nor the lines of a note that is
    wanted. -/
theorem loaded_isOk_iff (hwants : query.isEmpty = false) :
    (∃ notes, provider.loaded query = .ok notes)
      ↔ ∃ refs, provider.refs = .ok refs ∧ Forgiving provider.metadata refs
          ∧ Forgiving provider.lines (refs.filter (provider.wants query)) := by
  -- the stubs that are filled are those of the notes wanted
  have hfill : ∀ stubs refs, provider.stubs = .ok stubs → provider.refs = .ok refs →
      (Forgiving provider.fill (query.select stubs)
        ↔ Forgiving provider.lines (refs.filter (provider.wants query))) := by
    intro stubs refs hstubs hrefs
    rw [forgiving_fill_iff, map_ref_select hwants hstubs]
    have hperm := perm_toRead hrefs query
    exact ⟨fun h => h.subset fun _ => hperm.mem_iff.mpr,
      fun h => h.subset fun _ => hperm.mem_iff.mp⟩
  constructor
  · rintro ⟨notes, hloaded⟩
    cases hstubs : provider.stubs with
    | error cause => rw [loaded, hstubs] at hloaded; cases hloaded
    | ok stubs =>
        obtain ⟨refs, hrefs, hmetadata⟩ := stubs_isOk_iff.mp ⟨stubs, hstubs⟩
        rw [loaded, hstubs] at hloaded
        refine ⟨refs, hrefs, hmetadata, (hfill stubs refs hstubs hrefs).mp ?_⟩
        exact loadEach_isOk_iff.mp ⟨notes, hloaded⟩
  · rintro ⟨refs, hrefs, hmetadata, hlines⟩
    obtain ⟨stubs, hstubs⟩ := stubs_isOk_iff.mpr ⟨refs, hrefs, hmetadata⟩
    rw [loaded, hstubs]
    exact loadEach_isOk_iff.mpr ((hfill stubs refs hstubs hrefs).mpr hlines)

/-- **A SUMMARY COMES ABOUT** for a query that wants nothing, and otherwise exactly when what
    has to be loaded for it does not fail fatally. -/
theorem summary_isOk_iff :
    (∃ found, (provider.summary source layout).result = .ok found)
      ↔ (Query.ofSource source).isEmpty = true
        ∨ ∃ refs, provider.refs = .ok refs ∧ Forgiving provider.metadata refs
            ∧ Forgiving provider.lines (refs.filter (provider.wants (Query.ofSource source))) := by
  cases hwants : (Query.ofSource source).isEmpty with
  | true =>
      refine iff_of_true ⟨_, summary_result_of_isEmpty hwants⟩ (.inl rfl)
  | false =>
      rw [summary_result_of_loaded layout (by simp [hwants]), ← loaded_isOk_iff hwants]
      cases provider.loaded (Query.ofSource source) with
      | error cause => simp [Except.map]
      | ok notes => simp [Except.map]

/-- **THE FIELDS OF A SUMMARY** go together.  There is a summary unless something that has to
    be loaded for it fails fatally, and it is coherent.  If it is not empty,

    * the notes counted are those that the query selects and that load completely;
    * the fragments counted are the pairs of such a note and one of its occurrences that is
      wanted and starts on a line of the note. -/
theorem summary_fields_coherent (provider : Provider ε) (source : Text) (layout : Layout) :
    ((∃ found, (provider.summary source layout).result = .ok found)
        ↔ (Query.ofSource source).isEmpty = true
          ∨ ∃ refs, provider.refs = .ok refs ∧ Forgiving provider.metadata refs
              ∧ Forgiving provider.lines (refs.filter (provider.wants (Query.ofSource source))))
      ∧ ∀ found, (provider.summary source layout).result = .ok found →
          found.Coherent
            ∧ (found.empty = false → ∃ refs, provider.refs = .ok refs
                ∧ found.noteCount = (provider.documents (Query.ofSource source) refs).length
                ∧ found.fragmentCount
                  = (occurrencePairs (provider.documents (Query.ofSource source) refs)).countP
                      fun (note, o) => Tag.anyCovers (Query.ofSource source).wanted o.tag
                        && decide (o.first < note.lines.length)) := by
  refine ⟨summary_isOk_iff, fun found hfound => ?_⟩
  cases hwants : (Query.ofSource source).isEmpty with
  | true =>
      rw [summary_result_of_isEmpty hwants] at hfound
      obtain rfl := Except.ok.inj hfound
      exact ⟨Summary.coherent_nothing, fun hempty => nomatch hempty⟩
  | false =>
      rw [summary_result_of_loaded layout (by simp [hwants])] at hfound
      cases hloaded : provider.loaded (Query.ofSource source) with
      | error cause => rw [hloaded] at hfound; cases hfound
      | ok notes =>
          rw [hloaded] at hfound
          have hmade : Summary.ofFragments ((Query.ofSource source).fragments layout notes)
              notes.length = found := Except.ok.inj hfound
          subst hmade
          refine ⟨Summary.coherent_ofFragments _ layout notes, fun hempty => ?_⟩
          obtain ⟨refs, hrefs, hperm⟩ := perm_documents_of_loaded hloaded
          obtain ⟨hnotes, hfragments⟩ := Summary.counts_ofFragments hempty
          refine ⟨refs, hrefs, hnotes.trans hperm.length_eq, hfragments.trans ?_⟩
          rw [length_fragments_eq_countP]
          exact (perm_occurrencePairs hperm).countP_eq _

/-- The references of five notes, in the order of their paths. -/
def deskRefs : List NoteRef :=
  [⟨"a.md".toList, ['a']⟩, ⟨"b.md".toList, ['b']⟩, ⟨"c.md".toList, ['c']⟩,
   ⟨"d.md".toList, ['d']⟩, ⟨"e.md".toList, ['e']⟩]

/-- Five notes: `a` has three tags on its only line and one behind its end, `b` has no lines,
    `c` has no metadata, the tag of `d` is behind its end, and the lines of `e` fail fatally. -/
def desk : Provider Unit where
  refs := .ok deskRefs
  metadata := fun ref =>
    match ref.name with
    | ['a'] => .ok ⟨[Occurrence.on 0 "#t".toList, Occurrence.on 0 "#t/x".toList,
        Occurrence.on 0 "#u".toList, Occurrence.on 7 "#t".toList], false⟩
    | ['b'] => .ok ⟨[Occurrence.on 0 "#t".toList], false⟩
    | ['c'] => .error .unreadable
    | ['d'] => .ok ⟨[Occurrence.on 3 "#t".toList], false⟩
    | _ => .ok ⟨[Occurrence.on 0 "#u".toList], false⟩
  lines := fun ref =>
    match ref.name with
    | ['a'] => .ok ["#t #t/x #u".toList]
    | ['d'] => .ok [[]]
    | ['e'] => .error (.fatal ())
    | _ => .error .unreadable

/-- Two notes are counted, `a` and `d`, and two fragments, both from `a`; `e` is not wanted, so
    its lines do no harm. -/
theorem desk_counts :
    ∃ found, (desk.summary "tags: #t".toList ⟨true, true⟩).result = .ok found
      ∧ found.empty = false ∧ found.message = none
      ∧ found.noteCount = 2 ∧ found.fragmentCount = 2 := by
  have hquery : Query.ofSource "tags: #t".toList = { anyOf := ["#t".toList] } := by decide +kernel
  obtain ⟨hiff, hfields⟩ := summary_fields_coherent desk "tags: #t".toList ⟨true, true⟩
  rw [hquery] at hiff hfields
  have hmetadata : Forgiving desk.metadata deskRefs := by
    rintro ref href ⟨⟩
    revert ref
    decide
  have hlines : Forgiving desk.lines
      (deskRefs.filter (desk.wants { anyOf := ["#t".toList] })) := by
    rintro ref href ⟨⟩
    revert ref
    decide
  obtain ⟨found, hfound⟩ := hiff.mpr (.inr ⟨deskRefs, rfl, hmetadata, hlines⟩)
  obtain ⟨hcoherent, hcounts⟩ := hfields found hfound
  -- it is not empty, for there are two fragments
  have hempty : found.empty = false := by
    obtain ⟨notes, hloaded⟩ := (loaded_isOk_iff rfl).mpr ⟨deskRefs, rfl, hmetadata, hlines⟩
    obtain ⟨refs, hrefs, hperm⟩ := perm_documents_of_loaded hloaded
    obtain rfl := Except.ok.inj hrefs
    rw [summary_result_of_loaded _ (by rw [hquery]; decide), hquery, hloaded] at hfound
    obtain rfl := Except.ok.inj hfound
    refine Bool.eq_false_iff.mpr fun hnone => ?_
    have hlength := length_fragments_eq_countP { anyOf := ["#t".toList] } ⟨true, true⟩ notes
    rw [Summary.empty_ofFragments_iff.mp hnone, (perm_occurrencePairs hperm).countP_eq] at hlength
    exact absurd hlength (by decide)
  obtain ⟨refs, hrefs, hnotes, hfragments⟩ := hcounts hempty
  obtain rfl := Except.ok.inj hrefs
  refine ⟨found, hfound, hempty, hcoherent.silent hempty, hnotes.trans ?_, hfragments.trans ?_⟩
  · decide
  · decide

end Provider
end NoteDigest
