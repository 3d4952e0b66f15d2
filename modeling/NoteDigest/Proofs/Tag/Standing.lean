import NoteDigest.Proofs.Note.Fences
import NoteDigest.Proofs.Text.Trim
import NoteDigest.Proofs.Text.Words

/-! # Standing — where the tags of a line stand

    `inlineFrom` runs over the characters of a line and knows of those in front of it only
    whether a tag may start behind them (`opensBehind`).  So a tag is found exactly where a
    number sign stands at the start of the line or behind a blank, with a name behind it
    (`mem_inlineFrom_iff`).

    The tag is what it says: a piece of the line, as it is written there (`StandsOn`).  The
    slashes that are left out stood at its end, and none of the characters that make a name is
    left out with them (`mem_dropEndWhile_of_isNameChar`). -/

namespace NoteDigest

namespace Tag

variable {c : Char} {line rest : Text} {tag : Tag} {free : Bool}

/-! ## The characters of tags -/

theorem isTagChar_of_isNameChar (h : isNameChar c = true) : isTagChar c = true := by
  rw [isTagChar, (Bool.and_eq_true_iff.mp h).1]
  rfl

theorem isNameChar_of_isLetter (h : Text.isLetter c = true) : isNameChar c = true := by
  have hdecimal : Text.isDecimal c = false := by
    refine Bool.eq_false_iff.mpr fun hdecimal => ?_
    rw [Text.isLetter_of_isDecimal hdecimal] at h
    cases h
  rw [isNameChar, Text.isWord, h, hdecimal, Bool.or_true]
  rfl

theorem isTagChar_sign : isTagChar '#' = false := by
  decide

theorem isNameChar_slash : isNameChar '/' = false := by
  decide

theorem isBlank_of_isTagChar (h : isTagChar c = true) : Text.isBlank c = false := by
  refine Bool.eq_false_iff.mpr fun hblank => ?_
  rw [isTagChar, Text.isWord_of_isBlank hblank, Bool.false_or, Bool.or_eq_true] at h
  rcases h with hmark | hmark
  · rw [beq_iff_eq.mp hmark] at hblank
    revert hblank
    decide
  · rw [beq_iff_eq.mp hmark] at hblank
    revert hblank
    decide

/-- A row without the slashes at its end still holds what makes it a name. -/
theorem mem_dropEndWhile_of_isNameChar (h : c ∈ rest) (hname : isNameChar c = true) :
    c ∈ Text.dropEndWhile (· == '/') rest := by
  refine Text.mem_dropEndWhile h (beq_false_of_ne ?_)
  rintro rfl
  rw [isNameChar_slash] at hname
  cases hname

theorem getLast?_dropEndWhile_ne_slash (row : Text) :
    (Text.dropEndWhile (· == '/') row).getLast? ≠ some '/' := by
  intro hlast
  have hkept := Text.of_mem_getLast?_dropEndWhile (Option.mem_def.mpr hlast)
  revert hkept
  decide

/-! ## The scan -/

/-- A tag may start behind a text: the text ends with a blank, or it is empty and `free` says
    that a tag may start where it does. -/
def opensBehind (free : Bool) (before : Text) : Bool :=
  (before.getLast?.map Text.isBlank).getD free

theorem opensBehind_cons (free : Bool) (c : Char) (before : Text) :
    opensBehind free (c :: before) = opensBehind (Text.isBlank c) before := by
  rw [opensBehind, opensBehind, List.getLast?_cons]
  cases before.getLast? <;> rfl

/-- **THE SCAN** finds the tags whose number signs stand where a tag may start. -/
theorem mem_inlineFrom_iff :
    tag ∈ inlineFrom free line
      ↔ ∃ before rest, line = before ++ '#' :: rest ∧ opensBehind free before = true
          ∧ atSign? rest = some tag := by
  induction line generalizing free with
  | nil => simp [inlineFrom]
  | cons c rest ih =>
      rw [inlineFrom, List.mem_append, ih]
      constructor
      · rintro (hhere | ⟨before, later, rfl, hopens, htag⟩)
        · split at hhere
          · rename_i hsign
            obtain ⟨hfree, hc⟩ := Bool.and_eq_true_iff.mp hsign
            obtain rfl : c = '#' := beq_iff_eq.mp hc
            exact ⟨[], rest, rfl, hfree, Option.mem_toList.mp hhere⟩
          · cases hhere
        · exact ⟨c :: before, later, rfl, (opensBehind_cons free c before).trans hopens, htag⟩
      · rintro ⟨before, later, hline, hopens, htag⟩
        cases before with
        | nil =>
            obtain ⟨rfl, rfl⟩ := List.cons.inj hline
            have hsign : (free && '#' == '#') = true := by rw [show free = true from hopens]; rfl
            exact .inl (by rw [if_pos hsign]; exact Option.mem_toList.mpr htag)
        | cons d before =>
            obtain ⟨rfl, rfl⟩ := List.cons.inj hline
            rw [opensBehind_cons] at hopens
            exact .inr ⟨before, later, rfl, hopens, htag⟩

/-! ## The tag on the line -/

/-- The tag is a piece of the line, at its start or behind a blank. -/
def StandsOn (tag : Tag) (line : Text) : Prop :=
  ∃ before after, line = before ++ tag ++ after ∧ ∀ c ∈ before.getLast?, Text.isBlank c = true

/-- What is found at a number sign stands there. -/
theorem atSign?_isPrefix (h : atSign? rest = some tag) : tag <+: '#' :: rest := by
  rw [atSign?] at h
  split at h
  · rw [← Option.some.inj h]
    have hrow := Text.dropEndWhile_isPrefix (· == '/') (rest.takeWhile isTagChar)
    exact List.cons_prefix_cons.mpr ⟨rfl, hrow.trans (List.takeWhile_prefix isTagChar)⟩
  · cases h

/-- **LITERALLY**: a tag on a line is a piece of the line. -/
theorem standsOn_of_mem_inline (h : tag ∈ inline line) : StandsOn tag line := by
  obtain ⟨before, rest, rfl, hopens, htag⟩ := mem_inlineFrom_iff.mp h
  obtain ⟨after, hafter⟩ := atSign?_isPrefix htag
  refine ⟨before, after, by rw [List.append_assoc, hafter], fun c hc => ?_⟩
  rw [opensBehind, Option.mem_def.mp hc] at hopens
  exact hopens

end Tag
end NoteDigest
