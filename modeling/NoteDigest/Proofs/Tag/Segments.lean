import NoteDigest.Proofs.Tag.Hierarchy
import NoteDigest.Proofs.Text.Pieces

/-! # Segments — the hierarchy of tags is the order of their segments

    A tag is a row of segments with slashes between them.  Slashes may stand anywhere, at
    the start, at the end or side by side, so segments may be empty.  One tag covers another
    exactly when the segments of the one are the first segments of the other
    (`covers_iff_segments`).

    So covering has the laws of beginnings: it is a partial order, and of two tags that cover
    the same tag one covers the other (`covers_is_segment_order`). -/

namespace NoteDigest.Tag

variable {tag candidate : Tag} {row : List Text}

/-- The texts between the slashes of a tag, from left to right. -/
def segments (tag : Tag) : List Text :=
  Text.splitWhere (· == '/') tag

/-! ## A tag and its segments -/

theorem joinWith_segments (tag : Tag) : Text.joinWith ['/'] (segments tag) = tag :=
  Text.joinWith_splitWhere '/' tag

theorem segments_ne_nil (tag : Tag) : segments tag ≠ [] :=
  Text.splitWhere_ne_nil _ tag

/-- **SEGMENTS** are the one row of texts without slashes that makes up the tag. -/
theorem eq_segments_iff :
    row = segments tag
      ↔ row ≠ [] ∧ (∀ segment ∈ row, '/' ∉ segment) ∧ Text.joinWith ['/'] row = tag :=
  Text.eq_splitWhere_iff

theorem segments_injective (h : segments tag = segments candidate) : tag = candidate := by
  rw [← joinWith_segments tag, h, joinWith_segments]

/-- A slash behind a tag begins its further segments. -/
theorem segments_append_slash (tag below : Tag) :
    segments (tag ++ '/' :: below) = segments tag ++ segments below :=
  Text.splitWhere_append rfl tag below

/-! ## Covering -/

/-- **COVERING**: the segments of the tag are the first segments of the candidate. -/
theorem covers_iff_segments :
    covers tag candidate = true ↔ segments tag <+: segments candidate := by
  rw [covers_iff]
  constructor
  · rintro (rfl | ⟨below, rfl⟩)
    · exact List.prefix_refl _
    · rw [List.append_assoc, List.singleton_append, segments_append_slash]
      exact List.prefix_append _ _
  · rintro ⟨further, hsegments⟩
    cases further with
    | nil =>
        rw [List.append_nil] at hsegments
        exact .inl (segments_injective hsegments).symm
    | cons next others =>
        refine .inr ⟨Text.joinWith ['/'] (next :: others), ?_⟩
        -- both sides are glued from the segments of the candidate
        rw [← joinWith_segments candidate, ← hsegments,
          Text.joinWith_append '/' (segments_ne_nil tag) (List.cons_ne_nil next others),
          joinWith_segments, List.append_assoc, List.singleton_append]

theorem covers_antisymm (h : covers tag candidate = true) (h' : covers candidate tag = true) :
    tag = candidate := by
  rw [covers_iff_segments] at h h'
  exact segments_injective (h.eq_of_length (h.length_le.antisymm h'.length_le))

/-- **THE TAGS ABOVE ONE TAG** form a chain. -/
theorem covers_or_covers {other : Tag} (h : covers tag candidate = true)
    (h' : covers other candidate = true) : covers tag other = true ∨ covers other tag = true := by
  rw [covers_iff_segments] at h h'
  rw [covers_iff_segments, covers_iff_segments]
  exact List.prefix_or_prefix_of_prefix h h'

/-- **THE ORDER OF SEGMENTS**: a tag is cut into its segments in one way, and it covers a
    candidate exactly when its segments are the first segments of the candidate.  Hence

    * a tag covers itself, and what is covered by a tag that it covers;
    * tags that cover each other are the same;
    * of two tags that cover the same candidate one covers the other. -/
theorem covers_is_segment_order :
    (∀ tag row, row = segments tag
        ↔ row ≠ [] ∧ (∀ segment ∈ row, '/' ∉ segment) ∧ Text.joinWith ['/'] row = tag)
      ∧ (∀ tag candidate, covers tag candidate = true ↔ segments tag <+: segments candidate)
      ∧ (∀ tag, covers tag tag = true)
      ∧ (∀ above tag below, covers above tag = true → covers tag below = true →
          covers above below = true)
      ∧ (∀ tag other, covers tag other = true → covers other tag = true → tag = other)
      ∧ ∀ tag other candidate, covers tag candidate = true → covers other candidate = true →
          covers tag other = true ∨ covers other tag = true := by
  refine ⟨fun _ _ => eq_segments_iff, fun _ _ => covers_iff_segments, covers_refl, ?_, ?_, ?_⟩
  · intro above tag below habove hbelow
    exact covers_trans habove hbelow
  · intro tag other h h'
    exact covers_antisymm h h'
  · intro tag other candidate h h'
    exact covers_or_covers h h'

/-- Tags with empty segments: `#a/` stands below `#a` and above `#a//b`, but not above `#a/b`. -/
theorem slashed_tags_in_order :
    segments "#a//b".toList = ["#a".toList, [], "b".toList]
      ∧ covers "#a".toList "#a/".toList = true ∧ covers "#a/".toList "#a//b".toList = true
      ∧ covers "#a".toList "#a//b".toList = true
      ∧ (covers "#a/".toList "#a".toList = true ∨ covers "#a".toList "#a/".toList = true)
      ∧ ¬ covers "#a/".toList "#a".toList = true
      ∧ ¬ covers "#a/".toList "#a/b".toList = true := by
  obtain ⟨-, hsegments, -, htrans, hantisymm, hchain⟩ := covers_is_segment_order
  have habove : covers "#a".toList "#a/".toList = true := by decide
  have hbelow : covers "#a/".toList "#a//b".toList = true := by decide
  have hall := htrans _ _ _ habove hbelow
  refine ⟨by decide, habove, hbelow, hall, hchain _ _ _ hbelow hall, ?_, ?_⟩
  · intro hback
    exact absurd (hantisymm _ _ habove hback) (by decide)
  · intro hcovers
    exact absurd ((hsegments _ _).mp hcovers) (by decide)

end NoteDigest.Tag
