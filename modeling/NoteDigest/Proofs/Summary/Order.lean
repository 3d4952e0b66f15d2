import NoteDigest.Proofs.Summary.Agreement

/-! # Order — how a provider arranges its listing does not show

    A provider lists its notes in an order of its own.  The first thing a summary does with
    the listing is to sort it by path, so a provider can as well be asked for its sorted
    listing (`summary_sorted`, `expand_sorted`).

    Notes that their paths tell apart have one sorted listing only (`sort_eq_of_perm`).  So
    two providers that arrange the same notes differently, and load each in the same way,
    give the same summaries on the same way: what is tried for them, and in which order,
    is the same too (`arrangement_irrelevant`). -/

namespace NoteDigest

/-- A listing that is sorted stays as it is. -/
theorem NoteRef.sort_sort (refs : List NoteRef) :
    NoteRef.sort (NoteRef.sort refs) = NoteRef.sort refs :=
  List.mergeSort_of_pairwise (Text.ascending_mergeSort NoteRef.path refs)

/-- **ONE SORTED LISTING**: references that their paths tell apart are sorted in one way. -/
theorem NoteRef.sort_eq_of_perm {refs refs' : List NoteRef} (hperm : refs'.Perm refs)
    (hpaths : (refs.map NoteRef.path).Nodup) : NoteRef.sort refs' = NoteRef.sort refs := by
  have hsorted : (NoteRef.sort refs').Perm (NoteRef.sort refs) := by
    refine (List.mergeSort_perm refs' _).trans ?_
    exact hperm.trans (List.mergeSort_perm refs _).symm
  refine Text.eq_of_perm_of_ascending NoteRef.path ?_ hsorted
    (Text.ascending_mergeSort NoteRef.path refs') (Text.ascending_mergeSort NoteRef.path refs)
  intro ref href ref' href' hpath
  have hlisted : ∀ x ∈ NoteRef.sort refs', x ∈ refs :=
    fun x hx => hperm.mem_iff.mp (Provider.mem_sort.mp hx)
  exact List.inj_on_of_nodup_map hpaths (hlisted ref href) (hlisted ref' href') hpath

namespace Provider

variable {ε : Type} {provider other : Provider ε} {refs refs' : List NoteRef}

/-! ## Sorted listings -/

/-- The provider with its listing sorted by path. -/
def sorted (provider : Provider ε) : Provider ε :=
  { provider with refs := provider.refs.map NoteRef.sort }

theorem stubs_sorted (provider : Provider ε) : provider.sorted.stubs = provider.stubs := by
  rw [stubs, stubs, sorted]
  cases provider.refs with
  | error cause => rfl
  | ok refs =>
      show loadEach _ (NoteRef.sort (NoteRef.sort refs)) = loadEach _ (NoteRef.sort refs)
      rw [NoteRef.sort_sort]

theorem probes_sorted (provider : Provider ε) : provider.sorted.probes = provider.probes := by
  rw [probes, probes, sorted]
  cases provider.refs with
  | error cause => rfl
  | ok refs =>
      show triedBy _ (NoteRef.sort (NoteRef.sort refs)) = triedBy _ (NoteRef.sort refs)
      rw [NoteRef.sort_sort]

/-- **A SUMMARY** is the same from a sorted listing. -/
theorem summary_sorted (provider : Provider ε) (source : Text) (layout : Layout) :
    provider.sorted.summary source layout = provider.summary source layout := by
  by_cases hempty : (Query.ofSource source).isEmpty = true
  · rw [summary, summary]
    simp only [hempty, if_true]
  cases hstubs : provider.stubs with
  | error cause =>
      have hstubs' : provider.sorted.stubs = .error cause := (stubs_sorted provider).trans hstubs
      rw [summary_of_stubs_error hempty hstubs, summary_of_stubs_error hempty hstubs',
        probes_sorted]
  | ok stubs =>
      have hstubs' : provider.sorted.stubs = .ok stubs := (stubs_sorted provider).trans hstubs
      rw [summary_of_stubs_ok hempty hstubs, summary_of_stubs_ok hempty hstubs', fillSelected,
        fillSelected, probes_sorted]
      -- lines are loaded by reference, which the listing has no part in
      rfl

theorem expand_sorted (provider : Provider ε) (text : Text) (layout : Layout) :
    provider.sorted.expand text layout = provider.expand text layout := by
  simp only [expand, summary_sorted]

/-! ## Two arrangements -/

/-- Two providers list the same notes, in any order, and load each in the same way. -/
structure Rearranges (provider other : Provider ε) (refs refs' : List NoteRef) : Prop where
  listed : provider.refs = .ok refs
  listed' : other.refs = .ok refs'
  perm : refs'.Perm refs
  metadata : ∀ ref ∈ refs, other.metadata ref = provider.metadata ref
  lines : ∀ ref ∈ refs, other.lines ref = provider.lines ref

/-- With their listings sorted the two agree on every note. -/
theorem Rearranges.agrees (h : provider.Rearranges other refs refs')
    (hpaths : (refs.map NoteRef.path).Nodup) : provider.sorted.Agrees other.sorted where
  refs := by
    show other.refs.map NoteRef.sort = provider.refs.map NoteRef.sort
    rw [h.listed, h.listed']
    exact congrArg Except.ok (NoteRef.sort_eq_of_perm h.perm hpaths)
  notes := by
    intro listing hlisting ref href
    have hsorted : provider.refs.map NoteRef.sort = .ok listing := hlisting
    rw [h.listed] at hsorted
    obtain rfl : NoteRef.sort refs = listing := Except.ok.inj hsorted
    have hmem : ref ∈ refs := mem_sort.mp href
    exact .inl ⟨h.metadata ref hmem, h.lines ref hmem⟩

/-- **THE ARRANGEMENT** of a listing does not show: neither in the results, be they faults or
    not, nor in what is tried for them and in which order. -/
theorem arrangement_irrelevant (h : provider.Rearranges other refs refs')
    (hpaths : (refs.map NoteRef.path).Nodup) (source text : Text) (layout : Layout) :
    other.summary source layout = provider.summary source layout
      ∧ other.expand text layout = provider.expand text layout := by
  have hagrees := h.agrees hpaths
  constructor
  · rw [← summary_sorted other, ← summary_sorted provider]
    exact hagrees.summary_eq source layout
  · rw [← expand_sorted other, ← expand_sorted provider]
    exact hagrees.expand_eq text layout

/-- The shelf, arranged the other way round. -/
def turnedShelf : Provider Empty :=
  { shelf with refs := .ok shelfRefs.reverse }

/-- The references of the shelf in the order of their paths. -/
def orderedRefs : List NoteRef :=
  [⟨"a.md".toList, ['a']⟩, ⟨"b.md".toList, ['b']⟩, ⟨"c.md".toList, ['c']⟩,
   ⟨"d.md".toList, ['d']⟩]

theorem sort_shelfRefs : NoteRef.sort shelfRefs = orderedRefs := by
  have hperm : shelfRefs.Perm orderedRefs := by decide
  have hpaths : (orderedRefs.map NoteRef.path).Nodup := by decide
  rw [NoteRef.sort_eq_of_perm hperm hpaths]
  exact List.mergeSort_of_pairwise (by decide)

theorem serves_shelf : shelf.Serves shelfRefs :=
  ⟨rfl, fun _ _ cause => cause.elim, fun _ _ cause => cause.elim⟩

/-- From either side of the shelf the lines of `a`, `b` and `c` are asked for, in this order,
    though those of `b` cannot be read and `d` has no metadata. -/
theorem turnedShelf_reads :
    shelf.Rearranges turnedShelf shelfRefs shelfRefs.reverse
      ∧ (shelfRefs.map NoteRef.path).Nodup
      ∧ (turnedShelf.summary "tags: #t".toList ⟨false, false⟩).reads
          = [⟨"a.md".toList, ['a']⟩, ⟨"b.md".toList, ['b']⟩, ⟨"c.md".toList, ['c']⟩] := by
  have hturned : shelf.Rearranges turnedShelf shelfRefs shelfRefs.reverse :=
    ⟨rfl, rfl, List.reverse_perm shelfRefs, fun _ _ => rfl, fun _ _ => rfl⟩
  have hpaths : (shelfRefs.map NoteRef.path).Nodup := by decide
  refine ⟨hturned, hpaths, ?_⟩
  rw [(arrangement_irrelevant hturned hpaths "tags: #t".toList [] ⟨false, false⟩).1,
    summary_of_stubs_ok (by decide +kernel) (stubs_eq serves_shelf), sort_shelfRefs]
  decide +kernel

end Provider
end NoteDigest
