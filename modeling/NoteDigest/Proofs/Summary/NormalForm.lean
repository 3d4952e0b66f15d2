import Mathlib.Algebra.GroupWithZero.Nat
import Mathlib.Data.List.Dedup
import Mathlib.Data.List.GetD
import Mathlib.Data.Prod.Basic
import NoteDigest.Proofs.Selection
import NoteDigest.Proofs.Text.Sorting
import NoteDigest.Summary.Build

/-! # The normal form of a summary — three nested loops

    `summarize` selects notes, takes fragments from them note by note, and sorts these by
    tag.  The same markdown comes out of three nested loops without any sorting: over the
    tags that occur, over the notes the query accepts, over the occurrences of a note
    (`normalForm`).  The two agree because the sort is stable and groups by tag. -/

namespace NoteDigest

/-! ## The nested loops -/

/-- The tags that occur in some notes, each once, in ascending order. -/
def occurringTags (notes : List Note) : List Tag :=
  (notes.flatMap fun note => note.occurrences.map (·.tag)).dedup.mergeSort Text.le

/-- An occurrence in a note gives a fragment: one of the tags asked for covers its tag, and
    it stands on a line of the note. -/
def Query.draws (query : Query) (note : Note) (o : Occurrence) : Bool :=
  Tag.anyCovers (query.anyOf ++ query.allOf) o.tag && decide (o.first < note.lines.length)

/-- The fragment that an occurrence in a note gives. -/
def Note.fragmentAt (note : Note) (layout : Layout) (o : Occurrence) : Fragment :=
  Fragment.ofLine (note.lines.getD o.first []) o.tag note.ref layout

/-- The summary as three nested loops: tags, then notes, then occurrences. -/
def normalForm (notes : List Note) (query : Query) (layout : Layout) : Text :=
  (occurringTags notes).flatMap fun tag =>
    (notes.filter query.accepts).flatMap fun note =>
      (note.occurrences.filter fun o => o.tag == tag && query.draws note o).flatMap fun o =>
        (note.fragmentAt layout o).text

/-! ## The tags -/

theorem mem_occurringTags {notes : List Note} {tag : Tag} :
    tag ∈ occurringTags notes ↔ ∃ note ∈ notes, ∃ o ∈ note.occurrences, o.tag = tag := by
  rw [occurringTags, List.mem_mergeSort, List.mem_dedup, List.mem_flatMap]
  simp only [List.mem_map]

theorem ascending_occurringTags (notes : List Note) :
    Text.Ascending id (occurringTags notes) :=
  Text.ascending_mergeSort id _

theorem nodup_occurringTags (notes : List Note) : (occurringTags notes).Nodup :=
  (List.mergeSort_perm _ _).nodup_iff.mpr (List.nodup_dedup _)

/-! ## The fragments of one note -/

/-- The fragments of a note are those of the occurrences that give one, in order. -/
theorem fragments_eq_map (query : Query) (layout : Layout) (note : Note) :
    ((note.excerpts query.wanted).map fun (line, tag) =>
        Fragment.ofLine line tag note.ref layout)
      = (note.occurrences.filter (query.draws note)).map (note.fragmentAt layout) := by
  rw [Note.excerpts]
  induction note.occurrences with
  | nil => rfl
  | cons o rest ih =>
      rw [List.filterMap_cons, Query.anyCovers_wanted]
      by_cases hcovers : Tag.anyCovers (query.anyOf ++ query.allOf) o.tag = true
      · by_cases hline : o.first < note.lines.length
        · have hdraws : query.draws note o = true := by
            rw [Query.draws, hcovers, decide_eq_true hline]
            rfl
          rw [List.filter_cons_of_pos hdraws, List.map_cons, if_pos hcovers,
              List.getElem?_eq_getElem hline, Option.map_some]
          show _ :: _ = _ :: _
          rw [ih, Note.fragmentAt, List.getD_eq_getElem _ _ hline]
        · have hdraws : ¬ query.draws note o = true := by
            rw [Query.draws, decide_eq_false hline, Bool.and_false]
            exact Bool.false_ne_true
          rw [List.filter_cons_of_neg hdraws, if_pos hcovers,
              List.getElem?_eq_none (Nat.le_of_not_lt hline)]
          exact ih
      · have hdraws : ¬ query.draws note o = true := by
          rw [Query.draws, Bool.and_eq_true]
          exact fun h => hcovers h.1
        rw [List.filter_cons_of_neg hdraws, if_neg hcovers]
        exact ih

/-- All fragments, by notes and occurrences. -/
theorem fragments_eq_flatMap (query : Query) (layout : Layout) (notes : List Note) :
    query.fragments layout notes
      = notes.flatMap fun note =>
          (note.occurrences.filter (query.draws note)).map (note.fragmentAt layout) := by
  rw [Query.fragments]
  exact List.flatMap_congr fun note _ => fragments_eq_map query layout note

/-- The occurrences that give a fragment, each with its note and its number in the note, in the
    order of the fragments. -/
def Query.drawn (query : Query) (notes : List Note) : List (Note × Occurrence × Nat) :=
  notes.flatMap fun note =>
    (note.occurrences.zipIdx.filter fun o => query.draws note o.1).map fun o => (note, o)

/-- There is one fragment for each of them. -/
theorem fragments_eq_map_drawn (query : Query) (layout : Layout) (notes : List Note) :
    query.fragments layout notes
      = (query.drawn notes).map fun d => d.1.fragmentAt layout d.2.1 := by
  rw [fragments_eq_flatMap, Query.drawn, List.map_flatMap]
  refine List.flatMap_congr fun note _ => ?_
  have hnumbered : note.occurrences.filter (query.draws note)
      = (note.occurrences.zipIdx.filter fun o => query.draws note o.1).map Prod.fst := by
    show _ = (note.occurrences.zipIdx.filter (query.draws note ∘ Prod.fst)).map Prod.fst
    rw [← List.filter_map, List.zipIdx_map_fst]
  rw [hnumbered, List.map_map, List.map_map]
  rfl

theorem mem_drawn {query : Query} {notes : List Note} {d : Note × Occurrence × Nat}
    (h : d ∈ query.drawn notes) : d.1 ∈ notes ∧ d.1.occurrences[d.2.2]? = some d.2.1 := by
  obtain ⟨note, hnote, hd⟩ := List.mem_flatMap.mp h
  obtain ⟨o, ho, rfl⟩ := List.mem_map.mp hd
  exact ⟨hnote, List.mem_zipIdx_iff_getElem?.mp (List.mem_filter.mp ho).1⟩

/-- **NOTES WITH DIFFERENT PATHS** give one fragment at most for each path and number. -/
theorem nodup_drawn (query : Query) {notes : List Note} (h : (notes.map Note.path).Nodup) :
    ((query.drawn notes).map fun d => (d.1.path, d.2.2)).Nodup := by
  rw [Query.drawn, List.map_flatMap, List.nodup_flatMap]
  constructor
  · -- the numbers in one note are different
    intro note _
    rw [List.map_map]
    have hnumbers : (note.occurrences.zipIdx.map Prod.snd).Nodup := by
      rw [List.zipIdx_map_snd]
      exact List.nodup_range'
    have hkept : ((note.occurrences.zipIdx.filter fun o => query.draws note o.1).map
        Prod.snd).Nodup := hnumbers.sublist (List.filter_sublist.map Prod.snd)
    have hpaired := hkept.map (Prod.mk_right_injective note.path)
    rwa [List.map_map] at hpaired
  · refine (List.pairwise_map.mp h).imp ?_
    intro note other hne pair hnote hother
    obtain ⟨d, hd, rfl⟩ := List.mem_map.mp hnote
    obtain ⟨e, he, hpair⟩ := List.mem_map.mp hother
    obtain ⟨o, -, rfl⟩ := List.mem_map.mp hd
    obtain ⟨o', -, rfl⟩ := List.mem_map.mp he
    exact hne (congrArg Prod.fst hpair).symm

theorem mem_occurringTags_of_mem_fragments {query : Query} {layout : Layout}
    {notes : List Note} {fragment : Fragment} (h : fragment ∈ query.fragments layout notes) :
    fragment.tag ∈ occurringTags notes := by
  rw [fragments_eq_flatMap] at h
  obtain ⟨note, hnote, hmem⟩ := List.mem_flatMap.mp h
  obtain ⟨o, ho, rfl⟩ := List.mem_map.mp hmem
  exact mem_occurringTags.mpr ⟨note, hnote, o, (List.mem_filter.mp ho).1, rfl⟩

/-! ## The two forms agree -/

/-- The fragments of one tag, in the order in which they were taken. -/
theorem filter_fragments_eq (query : Query) (layout : Layout) (notes : List Note) (tag : Tag) :
    (query.fragments layout notes).filter (fun fragment => fragment.tag == tag)
      = notes.flatMap fun note =>
          (note.occurrences.filter fun o => o.tag == tag && query.draws note o).map
            (note.fragmentAt layout) := by
  rw [fragments_eq_flatMap, List.filter_flatMap]
  refine List.flatMap_congr fun note _ => ?_
  rw [List.filter_map, List.filter_filter]
  rfl

/-- A query that wants nothing draws no occurrence. -/
theorem draws_of_isEmpty {query : Query} (h : query.isEmpty = true) (note : Note)
    (o : Occurrence) : query.draws note o = false := by
  rw [Query.draws, ← Query.anyCovers_wanted, Query.anyCovers_wanted_of_isEmpty h]
  rfl

theorem normalForm_of_isEmpty {query : Query} (h : query.isEmpty = true) (notes : List Note)
    (layout : Layout) : normalForm notes query layout = [] := by
  simp [normalForm, draws_of_isEmpty h]

theorem summarize_eq_normalForm (notes : List Note) (query : Query) (layout : Layout) :
    summarize notes query layout = normalForm notes query layout := by
  cases hwants : query.isEmpty with
  | true =>
      rw [normalForm_of_isEmpty hwants, summarize, if_pos hwants]
  | false =>
      have hmem : ∀ fragment ∈ query.fragments layout (notes.filter query.accepts),
          fragment.tag ∈ occurringTags notes := by
        intro fragment hfragment
        obtain ⟨note, hnote, hocc⟩ :=
          mem_occurringTags.mp (mem_occurringTags_of_mem_fragments hfragment)
        exact mem_occurringTags.mpr ⟨note, (List.mem_filter.mp hnote).1, hocc⟩
      rw [summarize, if_neg (by rw [hwants]; exact Bool.false_ne_true),
          Query.select_eq_filter_accepts hwants, Fragment.aggregate, Fragment.sort,
          Text.mergeSort_key_eq_flatMap Fragment.tag (ascending_occurringTags notes)
            (nodup_occurringTags notes) hmem,
          List.flatMap_assoc, normalForm]
      -- the fragments of one tag stand in the order in which they were taken
      refine List.flatMap_congr fun tag _ => ?_
      rw [filter_fragments_eq, List.flatMap_assoc]
      refine List.flatMap_congr fun note _ => ?_
      rw [List.flatMap_map]

/-- Every occurrence that draws a fragment draws one, however many tags cover it. -/
theorem length_fragments_eq_sum (query : Query) (layout : Layout) (notes : List Note) :
    (query.fragments layout notes).length
      = (notes.map fun note => note.occurrences.countP (query.draws note)).sum := by
  rw [fragments_eq_flatMap, List.length_flatMap]
  refine congrArg List.sum (List.map_congr_left fun note _ => ?_)
  rw [List.length_map, ← List.countP_eq_length_filter]

/-- **NORMAL FORM**: the summary of any notes is the three nested loops over the distinct
    tags in ascending order, the accepted notes in their order and the occurrences of each
    note in theirs; every occurrence that counts gives one fragment. -/
theorem summarize_normal_form (notes : List Note) (query : Query) (layout : Layout) :
    (occurringTags notes).Pairwise (fun a b => Text.le a b = true ∧ a ≠ b)
      ∧ (∀ tag, tag ∈ occurringTags notes
          ↔ ∃ note ∈ notes, ∃ o ∈ note.occurrences, o.tag = tag)
      ∧ summarize notes query layout = normalForm notes query layout
      ∧ (query.fragments layout (query.select notes)).length
          = ((notes.filter query.accepts).map fun note =>
              note.occurrences.countP (query.draws note)).sum := by
  refine ⟨?_, fun tag => mem_occurringTags, summarize_eq_normalForm notes query layout, ?_⟩
  · exact (ascending_occurringTags notes).and (nodup_occurringTags notes)
  · cases hwants : query.isEmpty with
    | false =>
        rw [Query.select_eq_filter_accepts hwants, length_fragments_eq_sum]
    | true =>
        have hnone : ∀ note : Note, note.occurrences.countP (query.draws note) = 0 := by
          intro note
          rw [List.countP_eq_zero]
          intro o _
          rw [draws_of_isEmpty hwants]
          exact Bool.false_ne_true
        rw [length_fragments_eq_sum]
        simp [hnone]

end NoteDigest
