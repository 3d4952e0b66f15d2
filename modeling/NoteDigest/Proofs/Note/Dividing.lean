import NoteDigest.Proofs.Note.FrontMatter
import NoteDigest.Proofs.Text.Trim

/-! # Dividing — where front matter ends and the body begins

    The end of front matter is looked for twice.  The reader of properties cuts out the lines
    in front of the first that closes it (`linesToClosing?`); the scanner of tags only counts
    them (`bodyStart`).  Both come to the same line, which can be told from the lines alone
    (`FrontMatterEndsAt`).

    So a note is undivided for both, or it is divided for both at one line: what stands above
    it, but for the first line, is all that the one reads, and what stands below it is all
    that the other scans (`front_matter_scanners_agree`). -/

namespace NoteDigest.Note

variable {lines rest : List Text} {line : Text} {i e : Nat}

/-! ## Delimiters -/

/-- A line is one of some marks with blanks around it. -/
def IsDelimiter (marks : List Text) (line : Text) : Prop :=
  ∃ before mark after, mark ∈ marks ∧ line = before ++ mark ++ after
    ∧ (∀ c ∈ before, Text.isBlank c = true) ∧ ∀ c ∈ after, Text.isBlank c = true

/-- The mark that opens front matter. -/
def openingMarks : List Text :=
  ["---".toList]

/-- The marks that close front matter. -/
def closingMarks : List Text :=
  ["---".toList, "...".toList]

theorem trim_mem_iff {marks : List Text}
    (hends : ∀ mark ∈ marks,
      (mark.head?.toList ++ mark.getLast?.toList).any Text.isBlank = false) :
    Text.trim line ∈ marks ↔ IsDelimiter marks line := by
  have htrim : ∀ mark ∈ marks, Text.trim line = mark ↔ ∃ before after,
      line = before ++ mark ++ after ∧ (∀ c ∈ before, Text.isBlank c = true)
        ∧ ∀ c ∈ after, Text.isBlank c = true := by
    intro mark hmark
    have hend : ∀ c ∈ mark.head?.toList ++ mark.getLast?.toList, Text.isBlank c = false := by
      intro c hc
      exact Bool.eq_false_iff.mpr (List.any_eq_false.mp (hends mark hmark) c hc)
    refine Text.trim_eq_iff (fun c hc => ?_) fun c hc => ?_
    · exact hend c (List.mem_append_left _ (Option.mem_toList.mpr hc))
    · exact hend c (List.mem_append_right _ (Option.mem_toList.mpr hc))
  constructor
  · intro hmem
    obtain ⟨before, after, hline, hblank⟩ := (htrim _ hmem).mp rfl
    exact ⟨before, _, after, hmem, hline, hblank⟩
  · rintro ⟨before, mark, after, hmem, hline, hblank⟩
    rw [(htrim mark hmem).mpr ⟨before, after, hline, hblank⟩]
    exact hmem

theorem opensFrontMatter_iff : opensFrontMatter line = true ↔ IsDelimiter openingMarks line := by
  rw [← trim_mem_iff (by decide), opensFrontMatter, openingMarks, List.mem_singleton, beq_iff_eq]

theorem closesFrontMatter_iff : closesFrontMatter line = true ↔ IsDelimiter closingMarks line := by
  rw [← trim_mem_iff (by decide), closesFrontMatter, closingMarks, List.mem_pair, Bool.or_eq_true,
    beq_iff_eq, beq_iff_eq]

/-! ## The line that ends front matter -/

/-- **FRONT MATTER ENDS** at line `e` of a note: the first line opens it, and line `e` is the
    first behind it that closes it. -/
structure FrontMatterEndsAt (lines : List Text) (e : Nat) : Prop where
  below : 1 ≤ e
  opening : ∃ line, lines[0]? = some line ∧ IsDelimiter openingMarks line
  closing : ∃ line, lines[e]? = some line ∧ IsDelimiter closingMarks line
  first : ∀ i line, 1 ≤ i → i < e → lines[i]? = some line → ¬ IsDelimiter closingMarks line

/-- It ends at one line only. -/
theorem FrontMatterEndsAt.unique (h : FrontMatterEndsAt lines e) (h' : FrontMatterEndsAt lines i) :
    e = i := by
  obtain ⟨line, hline, hcloses⟩ := h.closing
  obtain ⟨line', hline', hcloses'⟩ := h'.closing
  rcases Nat.lt_trichotomy e i with hlt | heq | hgt
  · exact absurd hcloses (h'.first e line h.below hlt hline)
  · exact heq
  · exact absurd hcloses' (h.first i line' h'.below hgt hline')

/-- It ends at the line that a search from the second line on finds. -/
theorem frontMatterEndsAt_succ_iff :
    FrontMatterEndsAt (line :: rest) (i + 1)
      ↔ opensFrontMatter line = true ∧ rest.findIdx? closesFrontMatter = some i := by
  rw [List.findIdx?_eq_some_iff_getElem, opensFrontMatter_iff]
  constructor
  · rintro ⟨-, ⟨opening, hopening, hopens⟩, ⟨closing, hclosing, hcloses⟩, hfirst⟩
    obtain rfl : line = opening := Option.some.inj hopening
    obtain ⟨hlength, rfl⟩ := List.getElem?_eq_some_iff.mp hclosing
    have hlt : i < rest.length := Nat.lt_of_succ_lt_succ hlength
    refine ⟨hopens, hlt, closesFrontMatter_iff.mpr hcloses, ?_⟩
    intro j hj hother
    have hline : rest[j]? = some rest[j] := List.getElem?_eq_getElem (Nat.lt_trans hj hlt)
    exact hfirst (j + 1) _ (Nat.le_add_left 1 j) (Nat.succ_lt_succ hj) hline
      (closesFrontMatter_iff.mp hother)
  · rintro ⟨hopens, hlt, hcloses, hfirst⟩
    refine ⟨Nat.le_add_left 1 i, ⟨line, rfl, hopens⟩, ?_, ?_⟩
    · exact ⟨rest[i], List.getElem?_eq_getElem hlt, closesFrontMatter_iff.mp hcloses⟩
    · intro j other hle hj hother hdelimits
      obtain ⟨k, rfl⟩ := Nat.exists_eq_add_of_le' hle
      have hk : k < i := Nat.lt_of_succ_lt_succ hj
      obtain ⟨_, rfl⟩ := List.getElem?_eq_some_iff.mp hother
      exact hfirst k hk (closesFrontMatter_iff.mpr hdelimits)

theorem exists_of_frontMatterEndsAt (h : FrontMatterEndsAt lines e) :
    ∃ line rest i, lines = line :: rest ∧ e = i + 1 ∧ opensFrontMatter line = true
      ∧ rest.findIdx? closesFrontMatter = some i := by
  obtain ⟨i, rfl⟩ := Nat.exists_eq_add_of_le' h.below
  cases lines with
  | nil =>
      obtain ⟨line, hline, -⟩ := h.opening
      cases hline
  | cons line rest => exact ⟨line, rest, i, rfl, rfl, frontMatterEndsAt_succ_iff.mp h⟩

/-! ## The two scanners -/

/-- A note without front matter: no line ends it, nothing is read for properties, and all lines
    from the first on are scanned for fences and tags. -/
structure Undivided (lines : List Text) : Prop where
  unended : ∀ e, ¬ FrontMatterEndsAt lines e
  unread : frontMatterLines? lines = none
  properties : properties lines = .ok []
  occurrences : occurrencesIn lines = occurrencesFrom 0 none lines

/-- **DIVIDED** at line `e`: front matter ends there, the text that is read for properties is
    made of the lines between the first one and that one, and those below it are scanned.  The
    two delimiters are the only other lines. -/
structure DividedAt (lines : List Text) (e : Nat) : Prop where
  ends : FrontMatterEndsAt lines e
  read : frontMatterLines? lines = some ((lines.take e).drop 1)
  properties : properties lines = propertiesOf (Text.unlines ((lines.take e).drop 1))
  occurrences : occurrencesIn lines = occurrencesFrom (e + 1) none (lines.drop (e + 1))
  parts : ∃ opening closing, IsDelimiter openingMarks opening ∧ IsDelimiter closingMarks closing
    ∧ lines = opening :: (lines.take e).drop 1 ++ closing :: lines.drop (e + 1)

theorem undivided_of (hstart : bodyStart lines = 0) (hread : frontMatterLines? lines = none)
    (hends : ∀ e, ¬ FrontMatterEndsAt lines e) : Undivided lines where
  unended := hends
  unread := hread
  properties := by rw [properties, hread]
  occurrences := by rw [occurrencesIn, hstart, List.drop_zero]

theorem FrontMatterEndsAt.dividedAt (h : FrontMatterEndsAt lines e) : DividedAt lines e := by
  obtain ⟨line, rest, i, rfl, rfl, hopens, hfound⟩ := exists_of_frontMatterEndsAt h
  have hstart : bodyStart (line :: rest) = i + 2 := by rw [bodyStart, if_pos hopens, hfound]
  have hread : frontMatterLines? (line :: rest) = some (rest.take i) := by
    rw [frontMatterLines?, if_pos hopens, linesToClosing?_eq, hfound]
    rfl
  refine ⟨h, hread, ?_, ?_, ?_⟩
  · rw [properties, hread]
    rfl
  · rw [occurrencesIn, hstart]
  · obtain ⟨hlt, hcloses, -⟩ := List.findIdx?_eq_some_iff_getElem.mp hfound
    refine ⟨line, rest[i], opensFrontMatter_iff.mp hopens, closesFrontMatter_iff.mp hcloses, ?_⟩
    show line :: rest = line :: (rest.take i ++ rest[i] :: rest.drop (i + 1))
    rw [List.getElem_cons_drop, List.take_append_drop]

/-- Without an end of front matter there is none. -/
theorem undivided_of_unended (hends : ∀ e, ¬ FrontMatterEndsAt lines e) : Undivided lines := by
  cases lines with
  | nil => exact undivided_of rfl rfl hends
  | cons line rest =>
      by_cases hopens : opensFrontMatter line = true
      · have hnone : rest.findIdx? closesFrontMatter = none := by
          refine Option.eq_none_iff_forall_ne_some.mpr fun i hfound => ?_
          exact hends (i + 1) (frontMatterEndsAt_succ_iff.mpr ⟨hopens, hfound⟩)
        refine undivided_of ?_ ?_ hends
        · rw [bodyStart, if_pos hopens, hnone]
        · rw [frontMatterLines?, if_pos hopens, linesToClosing?_eq, hnone]
          rfl
      · refine undivided_of ?_ ?_ hends
        · rw [bodyStart, if_neg hopens]
        · rw [frontMatterLines?, if_neg hopens]

/-- **THE TWO SCANNERS AGREE** on every list of lines: it is undivided for both, or divided for
    both at one line and no other. -/
theorem front_matter_scanners_agree (lines : List Text) :
    Undivided lines ∨ ∃ e, DividedAt lines e ∧ ∀ i, FrontMatterEndsAt lines i → i = e := by
  by_cases hends : ∃ e, FrontMatterEndsAt lines e
  · obtain ⟨e, he⟩ := hends
    exact .inr ⟨e, he.dividedAt, fun i hi => hi.unique he⟩
  · exact .inl (undivided_of_unended (not_exists.mp hends))

end NoteDigest.Note
