import Mathlib.Data.Set.Basic
import NoteDigest.Selection

/-! # The hierarchy — the tags that some tags reach

    A tag covers itself and its descendants, and whatever its descendants cover
    (`covers_trans`).  So a list of tags stands for the set of all tags that it reaches, and
    that set holds the descendants of each of its members (`mem_reach_of_covers`).

    Nothing else of the list counts: it makes no difference in which order its tags stand, how
    often, or whether a descendant of one of them stands beside it (`reach_subset_iff`,
    `reach_eq_of_insert`). -/

namespace NoteDigest

namespace Tag

variable {tag above below candidate : Tag} {tags others : List Tag}

/-! ## One tag -/

theorem covers_iff :
    covers tag candidate = true ↔ candidate = tag ∨ (tag ++ ['/']) <+: candidate := by
  rw [covers, Bool.or_eq_true, beq_iff_eq, List.isPrefixOf_iff_prefix]

theorem covers_refl (tag : Tag) : covers tag tag = true :=
  covers_iff.mpr (.inl rfl)

/-- **DESCENDANTS OF DESCENDANTS** are descendants. -/
theorem covers_trans (habove : covers above tag = true) (hbelow : covers tag below = true) :
    covers above below = true := by
  rw [covers_iff] at habove hbelow ⊢
  rcases habove with rfl | habove
  · exact hbelow
  · rcases hbelow with rfl | hbelow
    · exact .inr habove
    · exact .inr (habove.trans ((List.prefix_append tag ['/']).trans hbelow))

/-- The candidate is a descendant of the tag, and not the tag itself. -/
def isAbove (tag candidate : Tag) : Bool :=
  (tag ++ ['/']).isPrefixOf candidate

theorem isAbove_iff : isAbove tag candidate = true ↔ (tag ++ ['/']) <+: candidate :=
  List.isPrefixOf_iff_prefix

theorem ne_of_isAbove (h : isAbove tag candidate = true) : candidate ≠ tag := by
  rintro rfl
  have hlength := (isAbove_iff.mp h).length_le
  rw [List.length_append, List.length_singleton] at hlength
  omega

/-! ## Some tags -/

/-- The tags that some tags cover: they themselves, and all their descendants. -/
def reach (tags : List Tag) : Set Tag :=
  {candidate | anyCovers tags candidate = true}

theorem mem_reach : candidate ∈ reach tags ↔ ∃ tag ∈ tags, covers tag candidate = true :=
  List.any_eq_true

theorem mem_reach_of_mem (h : tag ∈ tags) : tag ∈ reach tags :=
  mem_reach.mpr ⟨tag, h, covers_refl tag⟩

/-- **THE SET IS CLOSED**: with a tag it holds the descendants of the tag. -/
theorem mem_reach_of_covers (h : tag ∈ reach tags) (hcovers : covers tag below = true) :
    below ∈ reach tags := by
  obtain ⟨above, habove, htag⟩ := mem_reach.mp h
  exact mem_reach.mpr ⟨above, habove, covers_trans htag hcovers⟩

/-- **TAGS REACH NO FURTHER** than others, if these reach each of them. -/
theorem reach_subset_iff : reach tags ⊆ reach others ↔ ∀ tag ∈ tags, tag ∈ reach others := by
  constructor
  · intro h tag htag
    exact h (mem_reach_of_mem htag)
  · intro h candidate hcandidate
    obtain ⟨tag, htag, hcovers⟩ := mem_reach.mp hcandidate
    exact mem_reach_of_covers (h tag htag) hcovers

theorem reach_mono (h : tags ⊆ others) : reach tags ⊆ reach others :=
  reach_subset_iff.mpr fun _ htag => mem_reach_of_mem (h htag)

/-- A tag reaches further when one above it takes its place. -/
theorem reach_subset_of_replace {before after : List Tag} (h : covers above tag = true) :
    reach (before ++ tag :: after) ⊆ reach (before ++ above :: after) := by
  refine reach_subset_iff.mpr fun other hother => ?_
  have hrest : ∀ t ∈ before ++ after, t ∈ reach (before ++ above :: after) := by
    intro t ht
    refine mem_reach_of_mem ?_
    rcases List.mem_append.mp ht with hbefore | hafter
    · exact List.mem_append_left _ hbefore
    · exact List.mem_append_right _ (List.mem_cons_of_mem above hafter)
  rcases List.mem_append.mp hother with hbefore | hother
  · exact hrest other (List.mem_append_left _ hbefore)
  · rcases List.mem_cons.mp hother with rfl | hafter
    · exact mem_reach.mpr ⟨above, by simp, h⟩
    · exact hrest other (List.mem_append_right _ hafter)

/-- **ORDER AND REPETITION** make no difference. -/
theorem reach_eq_of_mem_iff (h : ∀ tag, tag ∈ tags ↔ tag ∈ others) : reach tags = reach others :=
  Set.Subset.antisymm (reach_mono fun tag htag => (h tag).mp htag)
    (reach_mono fun tag htag => (h tag).mpr htag)

/-- **A DESCENDANT** beside the tag that it descends from makes no difference. -/
theorem reach_eq_of_insert (htag : tag ∈ tags) (hcovers : covers tag below = true)
    (h : ∀ t, t ∈ others ↔ t = below ∨ t ∈ tags) : reach others = reach tags := by
  refine Set.Subset.antisymm (reach_subset_iff.mpr fun t ht => ?_)
    (reach_mono fun t ht => (h t).mpr (.inr ht))
  rcases (h t).mp ht with rfl | ht
  · exact mem_reach.mpr ⟨tag, htag, hcovers⟩
  · exact mem_reach_of_mem ht

theorem reach_eq_empty_iff : reach tags = ∅ ↔ tags = [] := by
  constructor
  · intro h
    refine List.eq_nil_iff_forall_not_mem.mpr fun tag htag => ?_
    have hmem : tag ∈ reach tags := mem_reach_of_mem htag
    rw [h] at hmem
    exact hmem
  · rintro rfl
    refine Set.eq_empty_iff_forall_notMem.mpr fun candidate hcandidate => ?_
    obtain ⟨tag, htag, -⟩ := mem_reach.mp hcandidate
    cases htag

theorem reach_append (tags others : List Tag) :
    reach (tags ++ others) = reach tags ∪ reach others := by
  ext candidate
  rw [Set.mem_union, mem_reach, mem_reach, mem_reach]
  simp only [List.mem_append, or_and_right, exists_or]

end Tag

/-- One of some tags is carried where a tag stands that they reach. -/
theorem any_carries_iff {tags : List Tag} {occurrences : List Occurrence} :
    tags.any (carries occurrences) = true ↔ ∃ o ∈ occurrences, o.tag ∈ Tag.reach tags := by
  simp only [List.any_eq_true, carries, Tag.mem_reach]
  constructor
  · rintro ⟨tag, htag, o, ho, hcovers⟩
    exact ⟨o, ho, tag, htag, hcovers⟩
  · rintro ⟨o, ho, tag, htag, hcovers⟩
    exact ⟨tag, htag, o, ho, hcovers⟩

end NoteDigest
