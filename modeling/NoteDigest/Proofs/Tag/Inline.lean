import NoteDigest.Proofs.Directive.Authoring
import NoteDigest.Proofs.Tag.Standing

/-! # Inline tags — which of them a directive can ask for

    A tag on a line of a note is a number sign and a row of tag characters behind it
    (`hasShape_of_mem_inline`): letters and other word characters of any script, hyphens
    and slashes.  A directive takes less.  The first character must be a letter, and of the
    characters that are no letters only ASCII digits and a few marks count (`Authorable`).

    A block that is written for an authorable tag asks for this tag, and one that is written
    for any other inline tag asks for nothing (`ofSource_of_authorable`,
    `ofSource_of_not_authorable`). -/

namespace NoteDigest.Tag

open Directive

variable {c : Char} {line : Text} {tag : Tag}

/-! ## Tags on a line -/

/-- A number sign and a row of tag characters. -/
def HasShape (tag : Tag) : Prop :=
  ∃ c rest, tag = '#' :: c :: rest ∧ ∀ d ∈ c :: rest, isTagChar d = true

theorem hasShape_of_atSign? {rest : Text} (h : atSign? rest = some tag) : HasShape tag := by
  rw [atSign?] at h
  split at h
  · rename_i hname
    obtain ⟨d, hd, hdname⟩ := List.any_eq_true.mp hname
    have hkept := List.ne_nil_of_mem (mem_dropEndWhile_of_isNameChar hd hdname)
    obtain ⟨c, others, hrow⟩ := List.exists_cons_of_ne_nil hkept
    refine ⟨c, others, ?_, ?_⟩
    · rw [← Option.some.inj h, hrow]
    · intro e he
      rw [← hrow] at he
      exact List.all_eq_true.mp List.all_takeWhile e ((Text.dropEndWhile_isPrefix _ _).mem he)
  · cases h

/-- **A TAG ON A LINE** is a number sign and a row of tag characters. -/
theorem hasShape_of_mem_inline (h : tag ∈ inline line) : HasShape tag := by
  obtain ⟨before, rest, -, -, htag⟩ := mem_inlineFrom_iff.mp h
  exact hasShape_of_atSign? htag

/-- **THE TAGS OF A NOTE** are tags on its lines. -/
theorem hasShape_of_mem_occurrencesIn {lines : List Text} {o : Occurrence}
    (h : o ∈ Note.occurrencesIn lines) : HasShape o.tag := by
  obtain ⟨line, -, -, htag⟩ := Note.exists_line_of_mem_occurrencesIn h
  exact hasShape_of_mem_inline htag

/-! ## Tags in a directive -/

/-- The tag can stand in a directive: a letter comes first, and then letters, ASCII digits
    and marks only. -/
def Authorable (tag : Tag) : Prop :=
  ∃ c rest, tag = '#' :: c :: rest ∧ Text.isLetter c = true
    ∧ ∀ d ∈ rest, Text.isLetter d = true ∨ d ∈ "0123456789_-/".toList

/-- No tag has a blank in it. -/
theorem HasShape.isBlank (h : HasShape tag) : ∀ d ∈ tag, Text.isBlank d = false := by
  obtain ⟨c, rest, rfl, hrow⟩ := h
  refine List.forall_mem_cons.mpr ⟨by decide, ?_⟩
  exact fun d hd => isBlank_of_isTagChar (hrow d hd)

theorem HasShape.newline_notMem (h : HasShape tag) : '\n' ∉ tag := by
  intro hmem
  have hblank := h.isBlank '\n' hmem
  revert hblank
  decide

theorem HasShape.ne_nil (h : HasShape tag) : tag ≠ [] := by
  obtain ⟨c, rest, rfl, -⟩ := h
  exact List.cons_ne_nil _ _

/-- A tag is one word, so it is the only tag of its text or none is. -/
theorem HasShape.tagsIn_eq (h : HasShape tag) :
    tagsIn tag = if isToken tag then [tag] else [] := by
  have hwords : Text.words tag = [tag] :=
    Text.words_joinWith (List.forall_mem_singleton.mpr ⟨h.ne_nil, h.isBlank⟩)
  rw [tagsIn, hwords]
  by_cases htoken : isToken tag = true
  · rw [if_pos htoken, List.filter_cons_of_pos htoken]
    rfl
  · rw [if_neg htoken, List.filter_cons_of_neg htoken]
    rfl

/-- A tag is a token of a directive when a letter comes first. -/
theorem HasShape.isToken_iff (h : HasShape tag) :
    isToken tag = true ↔ ∃ c rest, tag = '#' :: c :: rest ∧ Text.isLetter c = true := by
  obtain ⟨c, rest, rfl, hrow⟩ := h
  have hsign : rest.contains '#' = false := by
    rw [List.contains_eq_mem, decide_eq_false_iff_not]
    intro hmem
    have hsign := hrow '#' (List.mem_cons_of_mem c hmem)
    revert hsign
    decide
  rw [isToken, hsign, Bool.not_false, Bool.and_true]
  constructor
  · intro hletter
    exact ⟨c, rest, rfl, hletter⟩
  · rintro ⟨_, _, ⟨⟩, hletter⟩
    exact hletter

/-- Of the characters of a tag, a directive takes letters, ASCII digits and marks. -/
theorem isValueChar_iff (h : isTagChar c = true) :
    isValueChar c = true ↔ Text.isLetter c = true ∨ c ∈ "0123456789_-/".toList := by
  rw [isValueChar_iff_cases]
  -- the number sign and the blank are in no tag
  refine or_congr_right (or_iff_left ?_)
  rintro (rfl | rfl)
  · rw [isTagChar_sign] at h
    cases h
  · revert h
    decide

/-- **EXACTLY THE AUTHORABLE TAGS** are values whose one word is a token. -/
theorem HasShape.authorable_iff (h : HasShape tag) :
    Authorable tag ↔ isValue tag = true ∧ isToken tag = true := by
  rw [h.isToken_iff, isValue_iff]
  obtain ⟨c, rest, rfl, hrow⟩ := h
  constructor
  · rintro ⟨_, _, ⟨⟩, hletter, hrest⟩
    refine ⟨⟨List.cons_ne_nil _ _, ?_⟩, c, rest, rfl, hletter⟩
    refine List.forall_mem_cons.mpr ⟨by decide, List.forall_mem_cons.mpr ⟨?_, ?_⟩⟩
    · exact (isValueChar_iff (hrow c List.mem_cons_self)).mpr (.inl hletter)
    · intro d hd
      exact (isValueChar_iff (hrow d (List.mem_cons_of_mem c hd))).mpr (hrest d hd)
  · rintro ⟨⟨-, hchars⟩, _, _, ⟨⟩, hletter⟩
    refine ⟨c, rest, rfl, hletter, fun d hd => ?_⟩
    have hvalue := hchars d (List.mem_cons_of_mem '#' (List.mem_cons_of_mem c hd))
    exact (isValueChar_iff (hrow d (List.mem_cons_of_mem c hd))).mp hvalue

/-! ## Blocks for one tag -/

theorem HasShape.oneLine (h : HasShape tag) : OneLine tag none :=
  ⟨h.newline_notMem, nofun⟩

/-- **AN AUTHORABLE TAG** is what the block written for it asks for. -/
theorem ofSource_of_authorable (h : HasShape tag) (hauthorable : Authorable tag) :
    Query.ofSource (rendered tag none).body = { anyOf := [tag] } := by
  obtain ⟨hvalue, htoken⟩ := h.authorable_iff.mp hauthorable
  have hwritable : Writable tag none := ⟨hvalue, nofun⟩
  rw [ofSource_of_writable hwritable, h.tagsIn_eq, if_pos htoken]
  rfl

/-- **ANY OTHER TAG** leaves the block written for it without anything to ask for. -/
theorem ofSource_of_not_authorable (h : HasShape tag) (hauthorable : ¬ Authorable tag) :
    Query.ofSource (rendered tag none).body = {} := by
  by_cases hvalue : isValue tag = true
  · -- the clause counts, but its value holds no tag
    have htoken : ¬ isToken tag = true :=
      fun htoken => hauthorable (h.authorable_iff.mpr ⟨hvalue, htoken⟩)
    have hwritable : Writable tag none := ⟨hvalue, nofun⟩
    rw [ofSource_of_writable hwritable, h.tagsIn_eq, if_neg htoken]
    rfl
  · exact ofSource_of_not_isValue h.newline_notMem h.ne_nil hvalue

end NoteDigest.Tag
