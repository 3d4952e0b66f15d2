import Mathlib.Data.List.Basic
import NoteDigest.Selection

/-! # Selection — which notes a query accepts

    `Query.selects` asks of a note that a wanted tag covers one of its tags, before it
    looks at the clauses.  A query that wants something asks that by its clauses already,
    so the notes selected are those that the query accepts (`selects_eq_accepts`), which are
    those that meet each of its clauses (`select_eq_admitted`).  For one tag these are the
    notes with a tag that it covers (`selects_one_iff`). -/

namespace NoteDigest.Query

variable {query : Query}

/-- The note has not opted out, and its tags meet all clauses. -/
def accepts (query : Query) (note : Note) : Bool :=
  !note.optedOut && query.metBy note.occurrences

theorem mem_wanted {tag : Tag} : tag ∈ query.wanted ↔ tag ∈ query.anyOf ++ query.allOf :=
  List.mem_eraseDups

/-- The tags wanted cover what one of the two inclusive clauses covers. -/
theorem anyCovers_wanted (query : Query) (candidate : Tag) :
    Tag.anyCovers query.wanted candidate
      = Tag.anyCovers (query.anyOf ++ query.allOf) candidate := by
  rw [Bool.eq_iff_iff, Tag.anyCovers, Tag.anyCovers, List.any_eq_true, List.any_eq_true]
  simp only [mem_wanted]

theorem isEmpty_iff : query.isEmpty = true ↔ query.anyOf = [] ∧ query.allOf = [] := by
  rw [isEmpty, List.isEmpty_iff, List.eq_nil_iff_forall_not_mem]
  simp only [mem_wanted, ← List.eq_nil_iff_forall_not_mem]
  exact List.append_eq_nil_iff

/-- A query that wants nothing covers no tag. -/
theorem anyCovers_wanted_of_isEmpty (h : query.isEmpty = true) (candidate : Tag) :
    Tag.anyCovers query.wanted candidate = false := by
  have hnil : query.wanted = [] := List.isEmpty_iff.mp h
  rw [hnil]
  rfl

/-- A query that wants nothing selects nothing. -/
theorem select_of_isEmpty (h : query.isEmpty = true) (notes : List Note) :
    query.select notes = [] := by
  refine List.filter_eq_nil_iff.mpr fun note _ => ?_
  simp [selects, anyCovers_wanted_of_isEmpty h]

/-- A tag that is wanted and carried covers one of the occurrences. -/
theorem covered_of_carries {occurrences : List Occurrence} {tag : Tag}
    (htag : tag ∈ query.wanted) (hcarries : carries occurrences tag = true) :
    (occurrences.any fun o => Tag.anyCovers query.wanted o.tag) = true := by
  obtain ⟨o, ho, hcovers⟩ := List.any_eq_true.mp hcarries
  exact List.any_eq_true.mpr ⟨o, ho, List.any_eq_true.mpr ⟨tag, htag, hcovers⟩⟩

/-- Tags that meet the clauses of a query that wants something are covered by what it
    wants. -/
theorem covered_of_metBy {occurrences : List Occurrence} (hwants : query.isEmpty = false)
    (hmet : query.metBy occurrences = true) :
    (occurrences.any fun o => Tag.anyCovers query.wanted o.tag) = true := by
  rw [metBy, Bool.and_eq_true, Bool.and_eq_true] at hmet
  obtain ⟨⟨hany, hall⟩, -⟩ := hmet
  cases hallOf : query.allOf with
  | cons tag rest =>
      have hmem : tag ∈ query.allOf := by rw [hallOf]; exact List.mem_cons_self
      exact covered_of_carries (mem_wanted.mpr (List.mem_append_right _ hmem))
        (List.all_eq_true.mp hall tag hmem)
  | nil =>
      have hne : query.anyOf ≠ [] := by
        intro hanyOf
        rw [isEmpty_iff.mpr ⟨hanyOf, hallOf⟩] at hwants
        exact Bool.noConfusion hwants
      rw [Bool.or_eq_true, List.isEmpty_iff] at hany
      obtain ⟨tag, hmem, hcarries⟩ := List.any_eq_true.mp (hany.resolve_left hne)
      exact covered_of_carries (mem_wanted.mpr (List.mem_append_left _ hmem)) hcarries

/-- **SELECTION** by a query that wants something is acceptance: the two tests in front of
    the clauses reject nothing more. -/
theorem selects_eq_accepts (hwants : query.isEmpty = false) (note : Note) :
    query.selects note = query.accepts note := by
  rw [selects, accepts]
  cases hmet : query.metBy note.occurrences with
  | false => simp
  | true =>
      have hcovered := covered_of_metBy hwants hmet
      have hsome : note.occurrences.isEmpty = false := by
        cases hocc : note.occurrences with
        | nil => rw [hocc] at hcovered; exact Bool.noConfusion hcovered
        | cons o rest => rfl
      simp [hcovered, hsome]

/-- **A QUERY FOR ONE TAG** selects the notes with a tag that it covers. -/
theorem selects_one_iff {tag : Tag} {note : Note} :
    ({ anyOf := [tag] } : Query).selects note = true
      ↔ note.optedOut = false ∧ ∃ o ∈ note.occurrences, tag.covers o.tag = true := by
  have hmet : ({ anyOf := [tag] } : Query).metBy note.occurrences
      = carries note.occurrences tag := by
    rw [metBy]
    simp
  rw [selects_eq_accepts rfl, accepts, hmet, Bool.and_eq_true, Bool.not_eq_true', carries,
    List.any_eq_true]

theorem select_eq_filter_accepts (hwants : query.isEmpty = false) (notes : List Note) :
    query.select notes = notes.filter query.accepts :=
  List.filter_congr fun note _ => selects_eq_accepts hwants note

/-! ## Clause by clause -/

/-- **ADMITTED**: the note has not opted out and meets each of the three clauses. -/
structure Admits (query : Query) (note : Note) : Prop where
  stays : note.optedOut = false
  /-- A tag in `anyOf`, if there are any, covers a tag of the note, -/
  anyOf : query.anyOf = []
    ∨ ∃ tag ∈ query.anyOf, ∃ o ∈ note.occurrences, tag.covers o.tag = true
  /-- each tag in `allOf` does, -/
  allOf : ∀ tag ∈ query.allOf, ∃ o ∈ note.occurrences, tag.covers o.tag = true
  /-- and none in `noneOf`. -/
  noneOf : ∀ tag ∈ query.noneOf, ∀ o ∈ note.occurrences, tag.covers o.tag = false

theorem carries_iff {occurrences : List Occurrence} {tag : Tag} :
    carries occurrences tag = true ↔ ∃ o ∈ occurrences, tag.covers o.tag = true :=
  List.any_eq_true

theorem accepts_iff_admits {note : Note} : query.accepts note = true ↔ query.Admits note := by
  have hclauses : query.accepts note = true ↔ note.optedOut = false
      ∧ ((query.anyOf = [] ∨ ∃ tag ∈ query.anyOf, ∃ o ∈ note.occurrences, tag.covers o.tag = true)
        ∧ ∀ tag ∈ query.allOf, ∃ o ∈ note.occurrences, tag.covers o.tag = true)
      ∧ ∀ tag ∈ query.noneOf, ∀ o ∈ note.occurrences, tag.covers o.tag = false := by
    simp only [accepts, metBy, Bool.and_eq_true, Bool.not_eq_true', Bool.or_eq_true,
      List.isEmpty_iff, List.any_eq_true, List.all_eq_true, List.any_eq_false, carries_iff,
      not_exists, not_and, Bool.not_eq_true]
  rw [hclauses]
  constructor
  · rintro ⟨hstays, ⟨hany, hall⟩, hnone⟩
    exact ⟨hstays, hany, hall, hnone⟩
  · intro h
    exact ⟨h.stays, ⟨h.anyOf, h.allOf⟩, h.noneOf⟩

instance (query : Query) (note : Note) : Decidable (query.Admits note) :=
  decidable_of_iff _ accepts_iff_admits

/-- **THE TWO TESTS** in front of the clauses reject no note that is admitted. -/
theorem Admits.exists_covered {note : Note} (h : query.Admits note)
    (hwants : query.isEmpty = false) :
    ∃ o ∈ note.occurrences, Tag.anyCovers query.wanted o.tag = true := by
  have haccepts := accepts_iff_admits.mpr h
  rw [accepts, Bool.and_eq_true] at haccepts
  exact List.any_eq_true.mp (covered_of_metBy hwants haccepts.2)

/-- **WHAT IS SELECTED**: nothing by a query that wants no tags, and otherwise the notes that
    are admitted, in their order.  What is asked in front of the clauses, that a note has
    occurrences and that a wanted tag covers one of them, holds of all of these. -/
theorem select_eq_admitted (query : Query) (notes : List Note) :
    (query.wanted = [] → query.select notes = [])
      ∧ (query.wanted ≠ [] →
          query.select notes = notes.filter fun note => decide (query.Admits note))
      ∧ (query.wanted ≠ [] → ∀ note, query.Admits note →
          note.occurrences ≠ []
            ∧ ∃ o ∈ note.occurrences, Tag.anyCovers query.wanted o.tag = true) := by
  have hempty : query.isEmpty = true ↔ query.wanted = [] := List.isEmpty_iff
  have hsome : query.wanted ≠ [] → query.isEmpty = false := by
    intro hwanted
    rw [← Bool.not_eq_true, hempty]
    exact hwanted
  refine ⟨fun hwanted => select_of_isEmpty (hempty.mpr hwanted) notes, ?_, ?_⟩
  · intro hwanted
    rw [select_eq_filter_accepts (hsome hwanted)]
    refine List.filter_congr fun note _ => ?_
    rw [Bool.eq_iff_iff, decide_eq_true_iff]
    exact accepts_iff_admits
  · intro hwanted note hadmits
    obtain ⟨o, ho, hcovers⟩ := hadmits.exists_covered (hsome hwanted)
    exact ⟨List.ne_nil_of_mem ho, o, ho, hcovers⟩

/-- A note of a journey that is done. -/
def romeNote : Note :=
  { path := "rome.md".toList, name := "rome".toList
    occurrences := [Occurrence.on 0 "#city/rome".toList, Occurrence.on 2 "#done".toList] }

/-- Besides it a note that is secret too, one of a journey that is not done, one without tags,
    and one that has opted out. -/
def journeyNotes : List Note :=
  [romeNote,
   { path := "oslo.md".toList, name := "oslo".toList
     occurrences := [Occurrence.on 0 "#city/oslo".toList, Occurrence.on 0 "#done/2020".toList,
       Occurrence.on 1 "#secret".toList] },
   { path := "bath.md".toList, name := "bath".toList
     occurrences := [Occurrence.on 0 "#city".toList] },
   { path := "plan.md".toList, name := "plan".toList },
   { path := "nice.md".toList, name := "nice".toList
     occurrences := [Occurrence.on 0 "#city".toList, Occurrence.on 0 "#done".toList]
     optedOut := true }]

/-- A query with all three clauses selects `rome` alone, so does one without `anyOf`, and one
    that only excludes selects nothing. -/
theorem journeys_admitted :
    (⟨["#sea".toList, "#city".toList], ["#done".toList], ["#secret".toList]⟩ : Query).select
        journeyNotes = [romeNote]
      ∧ (⟨[], ["#done".toList], ["#secret".toList]⟩ : Query).select journeyNotes = [romeNote]
      ∧ (⟨[], [], ["#secret".toList]⟩ : Query).select journeyNotes = []
      ∧ ∃ o ∈ romeNote.occurrences,
          Tag.anyCovers (⟨[], ["#done".toList], ["#secret".toList]⟩ : Query).wanted o.tag
            = true := by
  refine ⟨?_, ?_, ?_, ?_⟩
  · rw [(select_eq_admitted _ journeyNotes).2.1 (by decide)]
    decide
  · rw [(select_eq_admitted _ journeyNotes).2.1 (by decide)]
    decide
  · exact (select_eq_admitted _ journeyNotes).1 rfl
  · exact ((select_eq_admitted _ journeyNotes).2.2 (by decide) romeNote (by decide)).2

end NoteDigest.Query
