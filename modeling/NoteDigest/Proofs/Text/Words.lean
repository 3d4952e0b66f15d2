import Mathlib.Data.List.Basic
import NoteDigest.Proofs.Text.Pieces
import NoteDigest.Text.Numeral

/-! # Words — what blanks part and what stands between them

    The tables of blanks and of word characters have no code point in common
    (`isWord_of_isBlank`), nor have those of decimal digits and of letters
    (`isLetter_of_isDecimal`).  So a text without blanks is one word, and words written with
    blanks between them are the words of what is written (`words_joinWith`). -/

namespace NoteDigest.Text

variable {c : Char} {text word : Text} {parts : List Text}

/-! ## Tables with nothing in common -/

/-- No range of a table meets one of another. -/
def apart (ranges others : List (Nat × Nat)) : Bool :=
  ranges.all fun range => others.all fun other =>
    Nat.blt range.2 other.1 || Nat.blt other.2 range.1

theorem exists_range_of_inRanges {n : Nat} :
    ∀ {ranges : List (Nat × Nat)}, inRanges ranges n = true →
      ∃ range ∈ ranges, range.1 ≤ n ∧ n ≤ range.2 := by
  intro ranges
  induction ranges with
  | nil => intro h; cases h
  | cons range rest ih =>
      obtain ⟨lo, hi⟩ := range
      intro h
      rw [inRanges] at h
      split at h
      · cases h
      · rename_i hlo
        split at h
        · rename_i hhi
          exact ⟨(lo, hi), List.mem_cons_self, Nat.le_of_not_lt hlo, hhi⟩
        · obtain ⟨range, hmem, hrange⟩ := ih h
          exact ⟨range, List.mem_cons_of_mem _ hmem, hrange⟩

/-- **TABLES APART** have no code point in common. -/
theorem not_inRanges_of_apart {ranges others : List (Nat × Nat)} {n : Nat}
    (hapart : apart ranges others = true) (h : inRanges ranges n = true) :
    inRanges others n = false := by
  refine Bool.eq_false_iff.mpr fun hother => ?_
  obtain ⟨range, hrange, hlo, hhi⟩ := exists_range_of_inRanges h
  obtain ⟨other, hmem, hlo', hhi'⟩ := exists_range_of_inRanges hother
  have hpair := List.all_eq_true.mp (List.all_eq_true.mp hapart range hrange) other hmem
  rw [Bool.or_eq_true, Nat.blt_eq, Nat.blt_eq] at hpair
  omega

theorem isLetter_of_isBlank (h : isBlank c = true) : isLetter c = false :=
  not_inRanges_of_apart (show apart blankRanges letterRanges = true by decide +kernel) h

/-- **NO BLANK** is a word character. -/
theorem isWord_of_isBlank (h : isBlank c = true) : isWord c = false := by
  have hunderscore : c ≠ '_' := by
    rintro rfl
    exact absurd h (by decide)
  have hnumeral : inRanges numeralRanges c.toNat = false :=
    not_inRanges_of_apart (show apart blankRanges numeralRanges = true by decide +kernel) h
  rw [isWord, beq_false_of_ne hunderscore, isLetter_of_isBlank h, hnumeral]
  rfl

/-- **NO DECIMAL DIGIT** is a letter. -/
theorem isLetter_of_isDecimal (h : isDecimal c = true) : isLetter c = false :=
  not_inRanges_of_apart (show apart decimalRanges letterRanges = true by decide +kernel) h

/-! ## Words -/

/-- A word of a text is not empty, and holds characters of the text that are no blanks. -/
theorem of_mem_words (h : word ∈ words text) :
    word ≠ [] ∧ ∀ c ∈ word, c ∈ text ∧ isBlank c = false := by
  obtain ⟨hpiece, hne⟩ := List.mem_filter.mp h
  refine ⟨?_, fun c hc => mem_of_mem_splitWhere hpiece c hc⟩
  rintro rfl
  simp at hne

/-- A blank in front parts no words. -/
theorem words_cons_blank (hc : isBlank c = true) (text : Text) :
    words (c :: text) = words text := by
  rw [words, splitWhere_cons_sep hc]
  rfl

theorem mem_joinWith {sep : Text} :
    ∀ {parts : List Text}, c ∈ joinWith sep parts → c ∈ sep ∨ ∃ part ∈ parts, c ∈ part := by
  intro parts
  induction parts with
  | nil => intro h; cases h
  | cons part others ih =>
      intro h
      cases others with
      | nil => exact .inr ⟨part, List.mem_cons_self, h⟩
      | cons next others =>
          have hglued : c ∈ part ++ sep ++ joinWith sep (next :: others) := h
          rw [List.mem_append, List.mem_append] at hglued
          rcases hglued with (hpart | hsep) | hothers
          · exact .inr ⟨part, List.mem_cons_self, hpart⟩
          · exact .inl hsep
          · rcases ih hothers with hsep | ⟨other, hother, hmem⟩
            · exact .inl hsep
            · exact .inr ⟨other, List.mem_cons_of_mem part hother, hmem⟩

/-- **WORDS WITH BLANKS BETWEEN THEM** are the words of what is written. -/
theorem words_joinWith (h : ∀ part ∈ parts, part ≠ [] ∧ ∀ c ∈ part, isBlank c = false) :
    words (joinWith [' '] parts) = parts := by
  cases parts with
  | nil => rfl
  | cons part others =>
      have hblank : isBlank ' ' = true := by decide
      rw [words, splitWhere_joinWith hblank (List.cons_ne_nil part others)
        fun x hx => (h x hx).2]
      refine List.filter_eq_self.mpr ?_
      intro x hx
      simp [(h x hx).1]

end NoteDigest.Text
