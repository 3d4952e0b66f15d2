import NoteDigest.Proofs.Directive.Clauses
import NoteDigest.Proofs.Summary.NormalForm
import NoteDigest.Proofs.Tag.Hierarchy

/-! # Widening — queries that ask for more or for less

    A query is narrower than another if, whatever the notes are, it selects some of the notes
    that the other selects and produces some of the fragments that the other produces, in the
    same order (`Query.Narrower`).  For this it is enough that what meets its clauses meets
    those of the other, and that the tags it wants reach no further (`narrower_of`).

    So excluding more narrows a query, and asking for any of more tags, or of tags further up,
    widens it (`clauses_monotone`).  A clause that asks for all of some tags does both: with
    one tag more fewer notes are selected, but more lines may be taken from each.  Queries whose
    clauses reach the same tags are narrower than each other, and yield the same
    (`clauses_denote_reach`). -/

namespace NoteDigest

open Tag Directive

/-- The fragments that a query produces from notes. -/
def Query.produced (query : Query) (layout : Layout) (notes : List Note) : List Fragment :=
  query.fragments layout (query.select notes)

namespace Query

variable {query other : Query} {notes : List Note} {layout : Layout}

/-! ## What a query reaches -/

/-- The tags whose lines are wanted, and all below them. -/
def wants (query : Query) : Set Tag :=
  reach (query.anyOf ++ query.allOf)

theorem isEmpty_iff_wants : query.isEmpty = true ↔ query.wants = ∅ := by
  rw [isEmpty_iff, wants, reach_eq_empty_iff, List.append_eq_nil_iff]

theorem draws_iff {note : Note} {o : Occurrence} :
    query.draws note o = true ↔ o.tag ∈ query.wants ∧ o.first < note.lines.length := by
  rw [draws, Bool.and_eq_true, decide_eq_true_eq]
  rfl

/-- **THE CLAUSES** in terms of the tags that they reach. -/
theorem metBy_iff {occurrences : List Occurrence} :
    query.metBy occurrences = true ↔
      (query.anyOf = [] ∨ ∃ o ∈ occurrences, o.tag ∈ reach query.anyOf)
        ∧ (∀ tag ∈ query.allOf, carries occurrences tag = true)
        ∧ ∀ o ∈ occurrences, o.tag ∉ reach query.noneOf := by
  rw [metBy, Bool.and_eq_true, Bool.and_eq_true, Bool.or_eq_true, List.isEmpty_iff,
    any_carries_iff, List.all_eq_true, Bool.not_eq_true', ← Bool.not_eq_true, any_carries_iff,
    and_assoc]
  push Not
  rfl

/-- The summary is put together from the fragments that are produced. -/
theorem summarize_eq_aggregate (query : Query) (notes : List Note) (layout : Layout) :
    summarize notes query layout = Fragment.aggregate (query.produced layout notes) := by
  cases hempty : query.isEmpty with
  | true =>
      rw [summarize, if_pos hempty, produced, select_of_isEmpty hempty]
      simp [fragments, Fragment.aggregate, Fragment.sort]
  | false => rw [summarize, if_neg (by simp [hempty]), produced]

/-! ## Narrower queries -/

/-- **NARROWER**: the query selects no notes and produces no fragments but those of the other,
    and keeps their order, also where the fragments are sorted. -/
structure Narrower (query other : Query) : Prop where
  select : ∀ notes, (query.select notes).Sublist (other.select notes)
  produced : ∀ layout notes,
    (query.produced layout notes).Sublist (other.produced layout notes)
  sorted : ∀ layout notes, (Fragment.sort (query.produced layout notes)).Sublist
    (Fragment.sort (other.produced layout notes))

/-- Whatever meets the clauses of the one meets those of the other. -/
theorem select_sublist
    (hmet : ∀ occurrences, query.metBy occurrences = true → other.metBy occurrences = true)
    (hwants : query.isEmpty = false → other.isEmpty = false) (notes : List Note) :
    (query.select notes).Sublist (other.select notes) := by
  cases hempty : query.isEmpty with
  | true =>
      rw [select_of_isEmpty hempty]
      exact List.nil_sublist _
  | false =>
      rw [select_eq_filter_accepts hempty, select_eq_filter_accepts (hwants hempty)]
      refine List.monotone_filter_right notes fun note haccepts => ?_
      rw [accepts, Bool.and_eq_true] at haccepts ⊢
      exact ⟨haccepts.1, hmet _ haccepts.2⟩

/-- **ENOUGH TO BE NARROWER**: the clauses are met less often, and the tags that are wanted
    reach no further. -/
theorem narrower_of
    (hmet : ∀ occurrences, query.metBy occurrences = true → other.metBy occurrences = true)
    (hwants : query.wants ⊆ other.wants) : query.Narrower other := by
  have hsome : query.isEmpty = false → other.isEmpty = false := by
    intro hquery
    refine Bool.eq_false_iff.mpr fun hother => ?_
    rw [isEmpty_iff_wants.mp hother, Set.subset_empty_iff] at hwants
    rw [isEmpty_iff_wants.mpr hwants] at hquery
    cases hquery
  have hselect := select_sublist hmet hsome
  have hproduced : ∀ layout notes,
      (query.produced layout notes).Sublist (other.produced layout notes) := by
    intro layout notes
    rw [produced, produced, fragments_eq_flatMap, fragments_eq_flatMap]
    -- from each note no more is taken, and from no more notes
    refine List.Sublist.trans (List.Sublist.flatMap_right _ fun note _ => ?_)
      ((hselect notes).flatMap _)
    refine (List.monotone_filter_right note.occurrences fun o ho => ?_).map _
    obtain ⟨htag, hline⟩ := draws_iff.mp ho
    exact draws_iff.mpr ⟨hwants htag, hline⟩
  exact ⟨hselect, hproduced, fun layout notes =>
    Text.sublist_mergeSort_key Fragment.tag (hproduced layout notes)⟩

/-! ## One clause changed -/

/-- **EXCLUDING MORE** narrows a query. -/
theorem narrower_put_noneOf {tags : List Tag} (h : query.noneOf ⊆ tags) :
    (query.put .noneOf tags).Narrower query := by
  refine narrower_of (fun occurrences hmet => ?_) subset_rfl
  obtain ⟨hany, hall, hnone⟩ := metBy_iff.mp hmet
  exact metBy_iff.mpr ⟨hany, hall, fun o ho hreach => hnone o ho (reach_mono h hreach)⟩

/-- **ASKING FOR ANY OF TAGS** that reach further widens a query, if it asked for any before. -/
theorem narrower_put_anyOf {tags : List Tag} (hne : query.anyOf ≠ [])
    (h : reach query.anyOf ⊆ reach tags) : query.Narrower (query.put .anyOf tags) := by
  refine narrower_of (fun occurrences hmet => ?_) ?_
  · obtain ⟨hany, hall, hnone⟩ := metBy_iff.mp hmet
    obtain ⟨o, ho, hreach⟩ := hany.resolve_left hne
    exact metBy_iff.mpr ⟨.inr ⟨o, ho, h hreach⟩, hall, hnone⟩
  · show reach (query.anyOf ++ query.allOf) ⊆ reach (tags ++ query.allOf)
    rw [reach_append, reach_append]
    exact Set.union_subset_union_left _ h

/-- **ASKING FOR ALL OF MORE TAGS** selects fewer notes, if the query wants anything. -/
theorem select_put_allOf_sublist {tags : List Tag} (hwants : query.isEmpty = false)
    (h : query.allOf ⊆ tags) (notes : List Note) :
    ((query.put .allOf tags).select notes).Sublist (query.select notes) := by
  refine select_sublist (fun occurrences hmet => ?_) (fun _ => hwants) notes
  obtain ⟨hany, hall, hnone⟩ := metBy_iff.mp hmet
  exact metBy_iff.mpr ⟨hany, fun tag htag => hall tag (h htag), hnone⟩

/-- **MONOTONICITY** of the three kinds of clauses:

    * with more tags in `noneOf` a query is narrower;
    * with more tags in `anyOf`, if there were some, or with one of them replaced by a tag above
      it, a query is wider;
    * with more tags in `allOf` a query that wants something selects fewer notes.

    The order of notes and fragments is kept each time. -/
theorem clauses_monotone (query : Query) :
    (∀ tags, query.noneOf ⊆ tags → (query.put .noneOf tags).Narrower query)
      ∧ (query.anyOf ≠ [] → ∀ tags, query.anyOf ⊆ tags →
          query.Narrower (query.put .anyOf tags))
      ∧ (∀ before tag after above, query.anyOf = before ++ tag :: after →
          covers above tag = true →
            query.Narrower (query.put .anyOf (before ++ above :: after)))
      ∧ (query.isEmpty = false → ∀ tags, query.allOf ⊆ tags → ∀ notes,
          ((query.put .allOf tags).select notes).Sublist (query.select notes)) := by
  refine ⟨fun tags => narrower_put_noneOf, ?_, ?_, fun hwants tags =>
    select_put_allOf_sublist hwants⟩
  · intro hne tags h
    exact narrower_put_anyOf hne (reach_mono h)
  · intro before tag after above hany habove
    refine narrower_put_anyOf ?_ ?_
    · rw [hany]
      exact List.append_ne_nil_of_right_ne_nil before (List.cons_ne_nil tag after)
    · rw [hany]
      exact reach_subset_of_replace habove

/-- Two notes with three tags, and a note that has opted out. -/
def gardenNotes : List Note :=
  [{ path := "bed.md".toList, name := "bed".toList
     lines := ["#plant/rose red".toList, "#water".toList]
     occurrences := [⟨"#plant/rose".toList, 0, 0⟩, ⟨"#water".toList, 1, 1⟩] },
   { path := "shed.md".toList, name := "shed".toList
     lines := ["#plant old #tool".toList]
     occurrences := [⟨"#plant".toList, 0, 0⟩, ⟨"#tool".toList, 0, 0⟩] },
   { path := "wild.md".toList, name := "wild".toList
     lines := ["#plant/fern".toList]
     occurrences := [⟨"#plant/fern".toList, 0, 0⟩], optedOut := true }]

/-- A query for roses where it has not been watered. -/
def gardenQuery : Query where
  anyOf := ["#plant/rose".toList, "#tool".toList]
  noneOf := ["#dry".toList]

/-- A clause is changed in each of the four ways, and some or all of the notes are left. -/
theorem garden_monotone :
    gardenQuery.anyOf ≠ [] ∧ gardenQuery.isEmpty = false
      ∧ covers "#plant".toList "#plant/rose".toList = true
      ∧ (gardenQuery.put .noneOf ["#water".toList, "#dry".toList]).Narrower gardenQuery
      ∧ gardenQuery.Narrower
          (gardenQuery.put .anyOf ["#plant/rose".toList, "#moss".toList, "#tool".toList])
      ∧ gardenQuery.Narrower (gardenQuery.put .anyOf ["#plant".toList, "#tool".toList])
      ∧ ((gardenQuery.put .allOf ["#water".toList]).select gardenNotes).Sublist
          (gardenQuery.select gardenNotes)
      ∧ (gardenQuery.select gardenNotes).map Note.name = ["bed".toList, "shed".toList]
      ∧ ((gardenQuery.put .allOf ["#water".toList]).select gardenNotes).map Note.name
          = ["bed".toList] := by
  obtain ⟨hnone, hany, habove, hall⟩ := clauses_monotone gardenQuery
  have hne : gardenQuery.anyOf ≠ [] := List.cons_ne_nil _ _
  have hwants : gardenQuery.isEmpty = false := by decide +kernel
  have hcovers : covers "#plant".toList "#plant/rose".toList = true := by decide
  refine ⟨hne, hwants, hcovers, hnone _ (by decide), hany hne _ (by decide), ?_,
    hall hwants _ (by decide) gardenNotes, by decide +kernel, by decide +kernel⟩
  exact habove [] _ ["#tool".toList] _ rfl hcovers

/-! ## Queries that reach the same tags -/

/-- **EQUIVALENT**: whatever the notes are, the same are selected, and the summary is the same. -/
structure Equivalent (query other : Query) : Prop where
  select : ∀ notes, query.select notes = other.select notes
  summarize : ∀ notes layout, summarize notes query layout = summarize notes other layout

/-- What is narrower both ways is equivalent. -/
theorem Narrower.antisymm (h : query.Narrower other) (h' : other.Narrower query) :
    query.Equivalent other where
  select := fun notes => (h.select notes).antisymm (h'.select notes)
  summarize := fun notes layout => by
    rw [summarize_eq_aggregate, summarize_eq_aggregate,
      (h.produced layout notes).antisymm (h'.produced layout notes)]

/-- **THE SAME IS ASKED FOR**: the tags that are reached by `anyOf` and those that are reached by
    `noneOf` are the same, and so are the tags in `allOf`. -/
structure AsksSame (query other : Query) : Prop where
  anyOf : reach query.anyOf = reach other.anyOf
  allOf : ∀ tag, tag ∈ query.allOf ↔ tag ∈ other.allOf
  noneOf : reach query.noneOf = reach other.noneOf

namespace AsksSame

theorem symm (h : query.AsksSame other) : other.AsksSame query :=
  ⟨h.anyOf.symm, fun tag => (h.allOf tag).symm, h.noneOf.symm⟩

theorem narrower (h : query.AsksSame other) : query.Narrower other := by
  refine narrower_of (fun occurrences hmet => ?_) ?_
  · obtain ⟨hany, hall, hnone⟩ := metBy_iff.mp hmet
    rw [← reach_eq_empty_iff, h.anyOf, reach_eq_empty_iff] at hany
    rw [h.noneOf] at hnone
    exact metBy_iff.mpr ⟨hany, fun tag htag => hall tag ((h.allOf tag).mpr htag), hnone⟩
  · rw [wants, wants, reach_append, reach_append, h.anyOf, reach_eq_of_mem_iff h.allOf]

/-- **QUERIES THAT ASK FOR THE SAME** are equivalent. -/
theorem equivalent (h : query.AsksSame other) : query.Equivalent other :=
  h.narrower.antisymm h.symm.narrower

end AsksSame

/-- The same tags in other orders or numbers ask for the same. -/
theorem asksSame_of_mem_iff (h : ∀ kind tag, tag ∈ query.tags kind ↔ tag ∈ other.tags kind) :
    query.AsksSame other :=
  ⟨reach_eq_of_mem_iff (h .anyOf), h .allOf, reach_eq_of_mem_iff (h .noneOf)⟩

/-- A descendant beside a tag asks for nothing more, except where all tags are asked for. -/
theorem asksSame_put {kind : Clause} (hkind : kind ≠ .allOf) {tags : List Tag}
    (h : reach tags = reach (query.tags kind)) : query.AsksSame (query.put kind tags) := by
  cases kind with
  | anyOf => exact ⟨h.symm, fun _ => Iff.rfl, rfl⟩
  | allOf => exact absurd rfl hkind
  | noneOf => exact ⟨rfl, fun _ => Iff.rfl, h.symm⟩

/-- **CLAUSES DENOTE WHAT THEY REACH**:

    * a list of tags reaches a set of tags that holds the descendants of its members, and
      queries whose clauses `anyOf` and `noneOf` reach the same sets, and whose clause `allOf`
      has the same tags, are equivalent;
    * so are queries with the same tags in each clause, in any order and however often;
    * and a query with a descendant put beside a tag of `anyOf` or of `noneOf`. -/
theorem clauses_denote_reach (query : Query) :
    (∀ tags : List Tag, ∀ tag ∈ reach tags, ∀ below, covers tag below = true →
        below ∈ reach tags)
      ∧ (∀ other, query.AsksSame other → query.Equivalent other)
      ∧ (∀ other, (∀ kind tag, tag ∈ query.tags kind ↔ tag ∈ other.tags kind) →
          query.Equivalent other)
      ∧ ∀ kind, kind ≠ .allOf → ∀ tag ∈ query.tags kind, ∀ below, covers tag below = true →
          ∀ tags, (∀ t, t ∈ tags ↔ t = below ∨ t ∈ query.tags kind) →
            query.Equivalent (query.put kind tags) := by
  refine ⟨fun tags tag htag below => mem_reach_of_covers htag,
    fun other => AsksSame.equivalent, ?_, ?_⟩
  · intro other hsame
    exact (asksSame_of_mem_iff hsame).equivalent
  · intro kind hkind tag htag below hbelow tags htags
    exact (asksSame_put hkind (reach_eq_of_insert htag hbelow htags)).equivalent

/-- The tags are turned round and repeated, and two clauses are given descendants. -/
theorem garden_equivalent :
    gardenQuery.Equivalent
        ⟨["#tool".toList, "#plant/rose".toList, "#tool".toList], [], ["#dry".toList]⟩
      ∧ gardenQuery.Equivalent
          (gardenQuery.put .anyOf
            ["#plant/rose".toList, "#tool/saw/old".toList, "#tool".toList])
      ∧ gardenQuery.Equivalent
          (gardenQuery.put .noneOf ["#dry/sand".toList, "#dry".toList])
      ∧ summarize gardenNotes gardenQuery ⟨false, false⟩
        = "#plant/rose red\n\n\n#plant old #tool\n\n\n".toList := by
  obtain ⟨-, -, hsame, hbelow⟩ := clauses_denote_reach gardenQuery
  have hturned : ∀ (a b t : Tag), t ∈ [a, b] ↔ t ∈ [b, a, b] := by
    intro a b t
    grind
  have hbetween : ∀ (a b c t : Tag), t ∈ [a, b, c] ↔ t = b ∨ t ∈ [a, c] := by
    intro a b c t
    simp [or_left_comm]
  have hfront : ∀ (a b t : Tag), t ∈ [a, b] ↔ t = a ∨ t ∈ [b] := fun a b t => List.mem_cons
  refine ⟨hsame _ ?_, ?_, ?_, ?_⟩
  · intro kind tag
    cases kind with
    | anyOf => exact hturned _ _ tag
    | allOf => exact Iff.rfl
    | noneOf => exact Iff.rfl
  · exact hbelow .anyOf (by decide) "#tool".toList (by decide) "#tool/saw/old".toList (by decide)
      _ (hbetween _ _ _)
  · exact hbelow .noneOf (by decide) "#dry".toList (by decide) "#dry/sand".toList (by decide)
      _ (hfront _ _)
  · rw [summarize, if_neg (by decide), Fragment.aggregate, Fragment.sort,
      List.mergeSort_of_pairwise (by decide)]
    decide

end Query
end NoteDigest
