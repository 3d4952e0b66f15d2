import Mathlib.Algebra.BigOperators.Group.List.Basic
import Mathlib.Algebra.GroupWithZero.Nat
import NoteDigest.Proofs.Tag.Standing
import NoteDigest.Summary.Build

/-! # Excerpts — the lines that a note gives for some tags

    The numbers of lines in the occurrences of a note come from the scanner, and its lines
    may have been read another time.  When both belong together (`Scanned`), no occurrence is
    behind the end of the note, so each that is wanted gives its line, on which its tag
    stands (`Scanned.grounded`).  A note that a query selects then gives a line, so a summary
    of such notes has at least as many fragments as notes (`length_le_length_fragments`), and
    what it tells of them is right (`Summary.tells_ofFragments`). -/

namespace NoteDigest

variable {note : Note} {notes : List Note} {wanted : List Tag} {line : Text} {tag : Tag}
  {o : Occurrence} {query : Query} {layout : Layout}

namespace Note

/-- An excerpt is the line of an occurrence that is wanted. -/
theorem mem_excerpts_iff :
    (line, tag) ∈ note.excerpts wanted
      ↔ ∃ o ∈ note.occurrences, Tag.anyCovers wanted o.tag = true
          ∧ note.lines[o.first]? = some line ∧ o.tag = tag := by
  rw [excerpts, List.mem_filterMap]
  refine exists_congr fun o => and_congr_right fun _ => ?_
  by_cases hcovers : Tag.anyCovers wanted o.tag = true
  · rw [if_pos hcovers, Option.map_eq_some_iff]
    simp [hcovers]
  · rw [if_neg hcovers]
    simp [hcovers]

/-! ## Grounded notes -/

/-- The occurrences of a note are those of its lines. -/
def Scanned (note : Note) : Prop :=
  note.occurrences = occurrencesIn note.lines

/-- What a note gives for some tags is all there, and all as it stands in the note. -/
structure Grounded (note : Note) (wanted : List Tag) : Prop where
  /-- No occurrence that is wanted is behind the end of the note, -/
  inRange : ∀ o ∈ note.occurrences, Tag.anyCovers wanted o.tag = true →
    o.first < note.lines.length
  /-- so each gives a line, -/
  complete : (note.excerpts wanted).length
    = note.occurrences.countP fun o => Tag.anyCovers wanted o.tag
  /-- and one does. -/
  gives : note.excerpts wanted ≠ []
  /-- What is given is a line of the note, with the tag on it. -/
  literal : ∀ line tag, (line, tag) ∈ note.excerpts wanted →
    line ∈ note.lines ∧ Tag.StandsOn tag line

namespace Scanned

theorem exists_line (h : note.Scanned) (ho : o ∈ note.occurrences) :
    ∃ line, note.lines[o.first]? = some line ∧ o.tag ∈ Tag.inline line := by
  rw [h] at ho
  obtain ⟨line, hline, -, htag⟩ := exists_line_of_mem_occurrencesIn ho
  exact ⟨line, hline, htag⟩

/-- **EVERY OCCURRENCE** that is wanted gives a line. -/
theorem length_excerpts (h : note.Scanned) (wanted : List Tag) :
    (note.excerpts wanted).length
      = note.occurrences.countP fun o => Tag.anyCovers wanted o.tag := by
  rw [excerpts, List.length_filterMap_eq_countP]
  refine List.countP_congr fun o ho => ?_
  obtain ⟨line, hline, -⟩ := h.exists_line ho
  rw [hline]
  split
  · rename_i hcovers
    exact iff_of_true rfl hcovers
  · rename_i hcovers
    exact iff_of_false Bool.false_ne_true hcovers

/-- **GROUNDED**: so is a note that a query selects. -/
theorem grounded (h : note.Scanned) (hselects : query.selects note = true) :
    note.Grounded query.wanted where
  inRange o ho _ := by
    obtain ⟨line, hline, -⟩ := h.exists_line ho
    exact (List.getElem?_eq_some_iff.mp hline).1
  complete := h.length_excerpts query.wanted
  gives := by
    -- selection asks for an occurrence that is wanted
    rw [Query.selects, Bool.and_eq_true, Bool.and_eq_true] at hselects
    obtain ⟨o, ho, hcovers⟩ := List.any_eq_true.mp hselects.1.2
    have hpos : 0 < note.occurrences.countP fun o => Tag.anyCovers query.wanted o.tag :=
      List.countP_pos_iff.mpr ⟨o, ho, hcovers⟩
    rw [← h.length_excerpts] at hpos
    exact List.ne_nil_of_length_pos hpos
  literal line tag hexcerpt := by
    obtain ⟨o, ho, -, hline, rfl⟩ := mem_excerpts_iff.mp hexcerpt
    obtain ⟨found, hfound, htag⟩ := h.exists_line ho
    obtain rfl : found = line := Option.some.inj (hfound.symm.trans hline)
    exact ⟨List.mem_of_getElem? hline, Tag.standsOn_of_mem_inline htag⟩

end Scanned
end Note

/-! ## Counting -/

theorem length_fragments (query : Query) (layout : Layout) (notes : List Note) :
    (query.fragments layout notes).length
      = (notes.map fun note => (note.excerpts query.wanted).length).sum := by
  rw [Query.fragments, List.length_flatMap]
  exact congrArg List.sum (List.map_congr_left fun note _ => List.length_map _)

/-- **AS MANY FRAGMENTS AS NOTES** there are at least, when each note gives a line. -/
theorem length_le_length_fragments (h : ∀ note ∈ notes, note.excerpts query.wanted ≠ []) :
    notes.length ≤ (query.fragments layout notes).length := by
  rw [length_fragments]
  have hone : ∀ n ∈ notes.map fun note => (note.excerpts query.wanted).length, 1 ≤ n := by
    intro n hn
    obtain ⟨note, hnote, rfl⟩ := List.mem_map.mp hn
    exact List.length_pos_of_ne_nil (h note hnote)
  have hsum := List.length_le_sum_of_one_le _ hone
  rwa [List.length_map] at hsum

/-- No fragment is empty. -/
theorem text_ne_nil_of_mem_fragments {fragment : Fragment}
    (h : fragment ∈ query.fragments layout notes) : fragment.text ≠ [] := by
  obtain ⟨note, -, hmem⟩ := List.mem_flatMap.mp h
  obtain ⟨excerpt, -, rfl⟩ := List.mem_map.mp hmem
  exact List.append_ne_nil_of_right_ne_nil _ (List.cons_ne_nil _ _)

/-- So there is markdown as soon as there are fragments. -/
theorem aggregate_eq_nil_iff {fragments : List Fragment} (h : ∀ f ∈ fragments, f.text ≠ []) :
    Fragment.aggregate fragments = [] ↔ fragments = [] := by
  rw [Fragment.aggregate, Fragment.sort, List.flatMap_eq_nil_iff]
  constructor
  · intro hnil
    refine List.eq_nil_iff_forall_not_mem.mpr fun f hf => ?_
    exact h f hf (hnil f (List.mem_mergeSort.mpr hf))
  · rintro rfl f hf
    rw [List.mergeSort_nil] at hf
    cases hf

namespace Summary

theorem ofFragments_nil (count : Nat) : ofFragments [] count = .nothing := by
  have hnil : Fragment.aggregate [] = [] := (aggregate_eq_nil_iff (List.forall_mem_nil _)).mpr rfl
  simp [ofFragments, hnil]

theorem ofFragments_of_ne_nil {fragments : List Fragment} (h : ∀ f ∈ fragments, f.text ≠ [])
    (hne : fragments ≠ []) (count : Nat) :
    ofFragments fragments count
      = { markdown := Fragment.aggregate fragments, empty := false
          fragmentCount := fragments.length, noteCount := count } := by
  have hmarkdown : (Fragment.aggregate fragments).isEmpty = false := by
    rw [List.isEmpty_eq_false_iff]
    exact fun hnil => hne ((aggregate_eq_nil_iff h).mp hnil)
  simp [ofFragments, hmarkdown]

/-- What a summary tells of the notes it is made of. -/
structure Tells (found : Summary) (query : Query) (layout : Layout) (notes : List Note) : Prop where
  markdown : found.markdown = Fragment.aggregate (query.fragments layout notes)
  fragmentCount : found.fragmentCount = (query.fragments layout notes).length
  noteCount : found.noteCount = notes.length
  empty : found.empty = true ↔ notes = []

/-- **THE COUNTS** are right for notes that give a line each. -/
theorem tells_ofFragments (layout : Layout)
    (h : ∀ note ∈ notes, note.excerpts query.wanted ≠ []) :
    (ofFragments (query.fragments layout notes) notes.length).Tells query layout notes := by
  cases notes with
  | nil =>
      rw [show query.fragments layout [] = [] from rfl, ofFragments_nil]
      exact ⟨((aggregate_eq_nil_iff (List.forall_mem_nil _)).mpr rfl).symm, rfl, rfl,
        iff_of_true rfl rfl⟩
  | cons note rest =>
      have hsome : query.fragments layout (note :: rest) ≠ [] :=
        List.ne_nil_of_length_pos
          (Nat.lt_of_lt_of_le (Nat.succ_pos _) (length_le_length_fragments h))
      rw [ofFragments_of_ne_nil (fun f hf => text_ne_nil_of_mem_fragments hf) hsome]
      exact ⟨rfl, rfl, rfl, iff_of_false Bool.false_ne_true (List.cons_ne_nil _ _)⟩

end Summary
end NoteDigest
