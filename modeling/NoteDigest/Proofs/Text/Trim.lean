import Mathlib.Data.List.Basic
import Mathlib.Data.List.TakeWhile
import NoteDigest.Text.Basic

/-! # Trimming — what is left stands at the front

    Dropping an ending leaves a beginning of the text, which ends with no character of the
    ending and holds all others (`exists_ending`).  So a text is trimmed to what stands between
    blanks (`trim_eq_iff`).  Taking a given beginning off leaves the ending behind it
    (`after?_eq_some_iff`), and what stands nowhere in a text is not replaced in it
    (`replace_eq_self`). -/

namespace NoteDigest.Text

variable {text : Text} {p : Char → Bool} {c : Char}

/-- What is left of a text without its ending is a beginning of it. -/
theorem dropEndWhile_isPrefix (p : Char → Bool) :
    ∀ text : Text, (dropEndWhile p text).IsPrefix text := by
  intro text
  induction text with
  | nil => exact List.nil_prefix
  | cons c rest ih =>
      rw [dropEndWhile]
      cases hkept : dropEndWhile p rest with
      | nil =>
          show (if p c then [] else [c]).IsPrefix (c :: rest)
          split
          · exact List.nil_prefix
          · exact ⟨rest, rfl⟩
      | cons d kept =>
          rw [hkept] at ih
          exact (List.cons_prefix_cons).mpr ⟨rfl, ih⟩

/-- A text is what is left without its ending, and the ending. -/
theorem exists_ending (p : Char → Bool) (text : Text) :
    ∃ ending, text = dropEndWhile p text ++ ending ∧ ∀ c ∈ ending, p c = true := by
  induction text with
  | nil => exact ⟨[], rfl, fun _ h => nomatch h⟩
  | cons c rest ih =>
      obtain ⟨ending, hrest, hending⟩ := ih
      rw [dropEndWhile]
      cases hkept : dropEndWhile p rest with
      | nil =>
          rw [hkept, List.nil_append] at hrest
          show ∃ ending', c :: rest = (if p c then [] else [c]) ++ ending' ∧ _
          by_cases hc : p c = true
          · rw [if_pos hc, hrest]
            exact ⟨c :: ending, rfl, List.forall_mem_cons.mpr ⟨hc, hending⟩⟩
          · rw [if_neg hc, hrest]
            exact ⟨ending, rfl, hending⟩
      | cons d kept =>
          rw [hkept] at hrest
          exact ⟨ending, congrArg (c :: ·) hrest, hending⟩

/-- What is left ends with no character of the ending. -/
theorem of_mem_getLast?_dropEndWhile (h : c ∈ (dropEndWhile p text).getLast?) :
    p c = false := by
  induction text with
  | nil => cases h
  | cons d rest ih =>
      rw [dropEndWhile] at h
      cases hkept : dropEndWhile p rest with
      | nil =>
          rw [hkept] at h
          refine Bool.eq_false_iff.mpr fun hc => ?_
          have hd : c ∈ (if p d then ([] : Text) else [d]).getLast? := h
          split at hd
          · cases hd
          · rename_i hd'
            obtain rfl : d = c := Option.some.inj hd
            exact hd' hc
      | cons e kept =>
          rw [hkept] at h ih
          exact ih (by rwa [List.getLast?_cons_cons] at h)

/-- **A BEGINNING STAYS** that does not itself end with a character of the ending. -/
theorem isPrefix_dropEndWhile {front : Text} (hfront : front <+: text)
    (h : ∀ c ∈ front.getLast?, p c = false) : front <+: dropEndWhile p text := by
  obtain ⟨ending, htext, hending⟩ := exists_ending p text
  rcases List.prefix_or_prefix_of_prefix hfront (dropEndWhile_isPrefix p text) with
    hkept | ⟨more, rfl⟩
  · exact hkept
  · rcases List.eq_nil_or_concat' more with rfl | ⟨others, c, rfl⟩
    · simp
    · obtain ⟨tail, htail⟩ := hfront
      -- the last character of what is more is in the ending
      have hmore : others ++ [c] ++ tail = ending := by
        refine (List.append_right_inj (dropEndWhile p text)).mp ?_
        rw [← htext, ← List.append_assoc, htail]
      have hc : p c = true := hending c (hmore ▸ by simp)
      rw [h c (by rw [← List.append_assoc, List.getLast?_concat]; rfl)] at hc
      cases hc

/-- A text with no such ending is left as it is. -/
theorem dropEndWhile_of_getLast? (h : ∀ c ∈ text.getLast?, p c = false) :
    dropEndWhile p text = text :=
  (dropEndWhile_isPrefix p text).eq_of_length_le
    (isPrefix_dropEndWhile (List.prefix_refl text) h).length_le

/-- Characters that belong to no ending are left. -/
theorem mem_dropEndWhile (h : c ∈ text) (hc : p c = false) :
    c ∈ dropEndWhile p text := by
  obtain ⟨ending, htext, hending⟩ := exists_ending p text
  rw [htext] at h
  rcases List.mem_append.mp h with hkept | hend
  · exact hkept
  · rw [hending c hend] at hc
    cases hc

/-- Nothing is left of an ending alone. -/
theorem dropEndWhile_eq_nil (h : ∀ c ∈ text, p c = true) : dropEndWhile p text = [] := by
  induction text with
  | nil => rfl
  | cons c rest ih =>
      obtain ⟨hc, hrest⟩ := List.forall_mem_cons.mp h
      rw [dropEndWhile, ih hrest]
      exact if_pos hc

/-- An ending is dropped from what stands in front of it as if it were not there. -/
theorem dropEndWhile_append (front : Text) {ending : Text} (h : ∀ c ∈ ending, p c = true) :
    dropEndWhile p (front ++ ending) = dropEndWhile p front := by
  induction front with
  | nil => exact dropEndWhile_eq_nil h
  | cons c front ih => rw [List.cons_append, dropEndWhile, dropEndWhile, ih]

/-- A trimmed text is a beginning of what follows the leading blanks. -/
theorem trim_isPrefix (text : Text) : (trim text).IsPrefix (text.dropWhile isBlank) :=
  dropEndWhile_isPrefix isBlank _

/-- **TRIMMED**: a text is trimmed to one with no blanks at its ends exactly when it is that
    one with blanks around it. -/
theorem trim_eq_iff {kept : Text} (hhead : ∀ c ∈ kept.head?, isBlank c = false)
    (hlast : ∀ c ∈ kept.getLast?, isBlank c = false) :
    trim text = kept ↔ ∃ before after, text = before ++ kept ++ after
      ∧ (∀ c ∈ before, isBlank c = true) ∧ ∀ c ∈ after, isBlank c = true := by
  constructor
  · rintro rfl
    obtain ⟨after, hafter, hblank⟩ := exists_ending isBlank (text.dropWhile isBlank)
    refine ⟨text.takeWhile isBlank, after, ?_, ?_, hblank⟩
    · rw [List.append_assoc]
      exact (List.takeWhile_append_dropWhile (p := isBlank)).symm.trans (congrArg _ hafter)
    · intro c hc
      exact List.mem_takeWhile_imp hc
  · rintro ⟨before, after, rfl, hbefore, hafter⟩
    have hbehind : (before ++ kept ++ after).dropWhile isBlank
        = (kept ++ after).dropWhile isBlank := by
      rw [List.append_assoc, List.dropWhile_append_of_pos hbefore]
    rw [trim, trimEnd, hbehind]
    cases kept with
    | nil =>
        rw [List.nil_append, List.dropWhile_eq_nil_iff.mpr hafter]
        rfl
    | cons c kept =>
        have hc : ¬ isBlank c = true := by simp [hhead c rfl]
        rw [List.cons_append, List.dropWhile_cons_of_neg hc, ← List.cons_append,
          dropEndWhile_append _ hafter, dropEndWhile_of_getLast? hlast]

/-- **TAKEN OFF**: what follows a beginning is what the text has behind it. -/
theorem after?_eq_some_iff {rest : Text} :
    ∀ {lead text : Text}, after? lead text = some rest ↔ text = lead ++ rest := by
  intro lead
  induction lead with
  | nil =>
      intro text
      rw [after?, Option.some.injEq]
      exact Iff.rfl
  | cons l lead ih =>
      intro text
      cases text with
      | nil => exact iff_of_false nofun nofun
      | cons c text =>
          rw [after?]
          by_cases hc : l = c
          · rw [if_pos hc, ih, hc, List.cons_append, List.cons.injEq]
            exact (and_iff_right rfl).symm
          · rw [if_neg hc]
            refine iff_of_false nofun fun h => ?_
            exact hc (List.cons.inj h).1.symm

/-- Where `old` stands nowhere, nothing is replaced. -/
theorem replace_eq_self {old new text : Text} (h : ¬ old <:+: text) :
    replace old new text = text := by
  rw [replace]
  induction text with
  | nil => rfl
  | cons c rest ih =>
      have hrest : ¬ old <:+: rest := by
        rintro ⟨before, after, hsplit⟩
        exact h ⟨c :: before, after, congrArg (c :: ·) hsplit⟩
      rw [replace.go]
      · exact congrArg (c :: ·) (ih hrest)
      · intro first others tail _ htail
        exact h ⟨[], tail, (after?_eq_some_iff.mp htail).symm⟩

end NoteDigest.Text
