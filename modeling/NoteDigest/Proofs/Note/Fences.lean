import Mathlib.Data.List.Basic
import NoteDigest.Note.Scan

/-! # Fences — which lines of a note are read for tags

    A line is a fence when it starts with the marker of one, blanks in front of it aside
    (`Fence.ofLine?_eq_some_iff`).  `occurrencesFrom` runs over the lines of a body with the
    fenced block that is open as its state.  This file separates the state from the output:

    * `Fence.after` is one step of the state, `openBefore` the state in front of a line;
    * a line is read (`ReadsLine`) if it stands behind the front matter, outside all fenced
      blocks, and is no fence itself;
    * the occurrences of a note are the tags of the lines that are read
      (`mem_occurrencesIn_iff`). -/

namespace NoteDigest.Note

/-! ## Lines that are fences -/

/-- Three of the character that a fence is made of. -/
def Fence.marker : Fence → Text
  | .backticks => "\x60\x60\x60".toList
  | .tildes => "~~~".toList

/-- **A LINE IS A FENCE** when behind its leading blanks it starts with the marker. -/
theorem Fence.ofLine?_eq_some_iff {fence : Fence} {line : Text} :
    Fence.ofLine? line = some fence ↔ fence.marker <+: line.dropWhile Text.isBlank := by
  -- the two markers start with different characters
  have hone : ∀ text : Text, Fence.backticks.marker <+: text → ¬ Fence.tildes.marker <+: text := by
    rintro _ ⟨rest, rfl⟩ ⟨rest', htext⟩
    exact absurd (List.cons.inj htext).1 (by decide)
  rw [Fence.ofLine?]
  split
  · rename_i htest
    have hbackticks : Fence.backticks.marker <+: line.dropWhile Text.isBlank :=
      List.isPrefixOf_iff_prefix.mp htest
    cases fence with
    | backticks => exact iff_of_true rfl hbackticks
    | tildes => exact iff_of_false nofun (hone _ hbackticks)
  · rename_i hother
    have hbackticks : ¬ Fence.backticks.marker <+: line.dropWhile Text.isBlank :=
      fun h => hother (List.isPrefixOf_iff_prefix.mpr h)
    split
    · rename_i htest
      have htildes : Fence.tildes.marker <+: line.dropWhile Text.isBlank :=
        List.isPrefixOf_iff_prefix.mp htest
      cases fence with
      | backticks => exact iff_of_false nofun hbackticks
      | tildes => exact iff_of_true rfl htildes
    · rename_i hnone
      cases fence with
      | backticks => exact iff_of_false nofun hbackticks
      | tildes => exact iff_of_false nofun fun h => hnone (List.isPrefixOf_iff_prefix.mpr h)

/-! ## The state of the scanner -/

/-- The fenced block that is open behind a line. -/
def Fence.after (within : Option Fence) (line : Text) : Option Fence :=
  match Fence.ofLine? line, within with
  | some fence, none => some fence
  | some fence, some opening => if fence = opening then none else some opening
  | none, within => within

section Step

variable {within : Option Fence} {fence opening : Fence} {line : Text}

theorem Fence.after_plain (h : Fence.ofLine? line = none) :
    Fence.after within line = within := by
  simp [Fence.after, h]

theorem Fence.after_opening (h : Fence.ofLine? line = some fence) :
    Fence.after none line = some fence := by
  simp [Fence.after, h]

theorem Fence.after_closing (h : Fence.ofLine? line = some fence) :
    Fence.after (some fence) line = none := by
  simp [Fence.after, h]

/-- A fence of the other kind changes nothing. -/
theorem Fence.after_other (h : Fence.ofLine? line = some fence) (hne : fence ≠ opening) :
    Fence.after (some opening) line = some opening := by
  simp [Fence.after, h, hne]

end Step

/-- The fenced block that is open behind some lines. -/
def Fence.afterAll (within : Option Fence) (lines : List Text) : Option Fence :=
  lines.foldl Fence.after within

/-- A line gives its tags when no fenced block is open and it is no fence. -/
theorem occurrencesFrom_cons (number : Nat) (within : Option Fence) (line : Text)
    (rest : List Text) :
    occurrencesFrom number within (line :: rest)
      = (if within = none ∧ Fence.ofLine? line = none then lineOccurrences number line else [])
          ++ occurrencesFrom (number + 1) (Fence.after within line) rest := by
  rw [occurrencesFrom.eq_def]
  cases hfence : Fence.ofLine? line with
  | none =>
      cases within with
      | none => simp [Fence.after_plain hfence, hfence]
      | some opening => simp [Fence.after_plain hfence, hfence]
  | some fence =>
      cases within with
      | none => simp [Fence.after_opening hfence, hfence]
      | some opening =>
          by_cases hkind : fence = opening
          · simp [Fence.after_closing (hkind ▸ hfence), hfence, hkind]
          · simp [Fence.after_other hfence hkind, hfence, hkind]

/-- **THE RUN** of the scanner: an occurrence comes from a line that is met in the neutral
    state and is no fence. -/
theorem mem_occurrencesFrom_iff {o : Occurrence} :
    ∀ {lines : List Text} {number : Nat} {within : Option Fence},
      o ∈ occurrencesFrom number within lines
        ↔ ∃ i line, lines[i]? = some line ∧ Fence.afterAll within (lines.take i) = none
            ∧ Fence.ofLine? line = none ∧ o ∈ lineOccurrences (number + i) line := by
  intro lines
  induction lines with
  | nil =>
      intro number within
      simp [occurrencesFrom]
  | cons first rest ih =>
      intro number within
      rw [occurrencesFrom_cons, List.mem_append, ih]
      constructor
      · rintro (hfirst | ⟨i, line, hline, hstate, hfence, ho⟩)
        · by_cases hread : within = none ∧ Fence.ofLine? first = none
          · rw [if_pos hread] at hfirst
            exact ⟨0, first, rfl, hread.1, hread.2, hfirst⟩
          · rw [if_neg hread] at hfirst
            cases hfirst
        · refine ⟨i + 1, line, hline, hstate, hfence, ?_⟩
          rw [show number + (i + 1) = number + 1 + i by omega]
          exact ho
      · rintro ⟨i, line, hline, hstate, hfence, ho⟩
        cases i with
        | zero =>
            have heq : first = line := Option.some.inj hline
            have hread : within = none ∧ Fence.ofLine? first = none :=
              ⟨hstate, heq ▸ hfence⟩
            rw [if_pos hread, heq]
            exact Or.inl ho
        | succ i =>
            refine Or.inr ⟨i, line, hline, hstate, hfence, ?_⟩
            rw [show number + 1 + i = number + (i + 1) by omega]
            exact ho

/-! ## The lines that are read -/

/-- The fenced block that is open in front of line `i` of a note. -/
def openBefore (lines : List Text) (i : Nat) : Option Fence :=
  Fence.afterAll none ((lines.take i).drop (bodyStart lines))

/-- Line `i` of a note is read for tags. -/
def ReadsLine (lines : List Text) (i : Nat) : Prop :=
  bodyStart lines ≤ i ∧ openBefore lines i = none
    ∧ ∀ line, lines[i]? = some line → Fence.ofLine? line = none

/-- The state moves on by one line. -/
theorem openBefore_succ {lines : List Text} {i : Nat} {line : Text}
    (hbody : bodyStart lines ≤ i) (hline : lines[i]? = some line) :
    openBefore lines (i + 1) = Fence.after (openBefore lines i) line := by
  have htake : lines.take (i + 1) = lines.take i ++ [line] := by
    rw [List.take_add_one, hline]
    rfl
  have hlen : bodyStart lines ≤ (lines.take i).length := by
    have hlt : i < lines.length := (List.getElem?_eq_some_iff.mp hline).1
    rw [List.length_take]
    omega
  rw [openBefore, openBefore, htake, List.drop_append_of_le_length hlen, Fence.afterAll,
      List.foldl_append]
  rfl

/-- **THE OCCURRENCES** of a note are the tags of the lines that are read. -/
theorem mem_occurrencesIn_iff {lines : List Text} {o : Occurrence} :
    o ∈ occurrencesIn lines
      ↔ ∃ i line, lines[i]? = some line ∧ ReadsLine lines i ∧ o ∈ lineOccurrences i line := by
  rw [occurrencesIn, mem_occurrencesFrom_iff]
  constructor
  · rintro ⟨i, line, hline, hstate, hfence, ho⟩
    rw [List.getElem?_drop] at hline
    rw [List.take_drop] at hstate
    refine ⟨bodyStart lines + i, line, hline, ⟨Nat.le_add_right _ _, ?_, ?_⟩, ho⟩
    · exact hstate
    · intro line' hline'
      rw [hline] at hline'
      exact Option.some.inj hline' ▸ hfence
  · rintro ⟨i, line, hline, ⟨hbody, hstate, hfence⟩, ho⟩
    obtain ⟨j, rfl⟩ := Nat.exists_eq_add_of_le hbody
    refine ⟨j, line, ?_, ?_, hfence line hline, ho⟩
    · rw [List.getElem?_drop]
      exact hline
    · rw [List.take_drop]
      exact hstate

/-- The line with the number of an occurrence is read, and the tag is on it. -/
theorem exists_line_of_mem_occurrencesIn {lines : List Text} {o : Occurrence}
    (h : o ∈ occurrencesIn lines) :
    ∃ line, lines[o.first]? = some line ∧ ReadsLine lines o.first ∧ o.tag ∈ Tag.inline line := by
  obtain ⟨i, line, hline, hreads, ho⟩ := mem_occurrencesIn_iff.mp h
  obtain ⟨tag, htag, rfl⟩ := List.mem_map.mp ho
  exact ⟨line, hline, hreads, htag⟩

end NoteDigest.Note
