import NoteDigest.Proofs.Directive.Scanning
import NoteDigest.Proofs.Note.Fences
import NoteDigest.Proofs.Text.Trim

/-! # Hosting — when a block tags the note it stands in

    Two scanners run over the lines of a note: one finds blocks, one reads tags and skips
    fenced blocks.  They see the fences of a block alike, but not what is around and
    inside it: front matter, tildes and fences with a language mean nothing to the first.
    So a block can tag its own note.  It does exactly when a line of its body bears a tag
    and is read (`tags_iff_leaks`); it never does when it is sheltered, that is, when the
    reader takes it for one fenced block (`not_tags_of_sheltered`). -/

namespace NoteDigest.Directive

open Note

/-! ## Both scanners see the fences of a block -/

/-- A line that starts with three backticks, leading blanks aside, is a fence. -/
theorem ofLine?_of_trim_eq {line rest : Text} (h : Text.trim line = fence ++ rest) :
    Fence.ofLine? line = some .backticks := by
  refine Fence.ofLine?_eq_some_iff.mpr (List.IsPrefix.trans ?_ (Text.trim_isPrefix line))
  rw [h]
  exact ⟨rest, rfl⟩

theorem ofLine?_of_opens {line : Text} (h : opens line = true) :
    Fence.ofLine? line = some .backticks :=
  ofLine?_of_trim_eq (beq_iff_eq.mp h)

theorem ofLine?_of_closes {line : Text} (h : closes line = true) :
    Fence.ofLine? line = some .backticks := by
  have htrim : Text.trim line = fence ++ [] := by
    rw [List.append_nil]
    exact beq_iff_eq.mp h
  exact ofLine?_of_trim_eq htrim

/-! ## Tags inside a block -/

namespace Block

/-- The block tags its note: an occurrence stands on one of its lines. -/
def Tags (b : Block) (lines : List Text) : Prop :=
  ∃ o ∈ occurrencesIn lines, b.first ≤ o.first ∧ o.first ≤ b.last

/-- A line of the body bears a tag and is read. -/
def Leaks (b : Block) (lines : List Text) : Prop :=
  ∃ i line, b.first < i ∧ i < b.last ∧ lines[i]? = some line ∧ ReadsLine lines i
    ∧ Tag.inline line ≠ []

/-- The reader takes the block for one fenced block: it stands behind the front matter and
    in no other fenced block, and no line of its body starts with three backticks. -/
structure Sheltered (b : Block) (lines : List Text) : Prop where
  behind : bodyStart lines ≤ b.first
  outside : openBefore lines b.first = none
  unbroken : ∀ i line, b.first < i → i < b.last → lines[i]? = some line →
    Fence.ofLine? line ≠ some .backticks

variable {b : Block} {lines : List Text}

/-- A fence of the block itself is not read. -/
theorem not_readsLine_of_fence {i : Nat} {line : Text} (hline : lines[i]? = some line)
    (hfence : Fence.ofLine? line = some .backticks) : ¬ ReadsLine lines i := by
  rintro ⟨-, -, hnone⟩
  rw [hnone line hline] at hfence
  cases hfence

/-- **THE EXACT CONDITION**: a block tags its note when a line of its body bears a tag and
    is read. -/
theorem tags_iff_leaks (h : b.StandsIn lines) : b.Tags lines ↔ b.Leaks lines := by
  constructor
  · rintro ⟨o, ho, hfirst, hlast⟩
    obtain ⟨i, line, hline, hread, hmem⟩ := mem_occurrencesIn_iff.mp ho
    obtain ⟨tag, htag, rfl⟩ := List.mem_map.mp hmem
    have hfirst : b.first ≤ i := hfirst
    have hlast : i ≤ b.last := hlast
    have hne : Tag.inline line ≠ [] := List.ne_nil_of_mem htag
    have hnotfirst : i ≠ b.first := by
      rintro rfl
      obtain ⟨opening, hopening, hopens⟩ := h.first_opens
      exact not_readsLine_of_fence hopening (ofLine?_of_opens hopens) hread
    have hnotlast : i ≠ b.last := by
      rintro rfl
      obtain ⟨closing, hclosing, hcloses⟩ := h.last_closes
      exact not_readsLine_of_fence hclosing (ofLine?_of_closes hcloses) hread
    exact ⟨i, line, by omega, by omega, hline, hread, hne⟩
  · rintro ⟨i, line, hfirst, hlast, hline, hread, hne⟩
    obtain ⟨tag, htag⟩ := List.exists_mem_of_ne_nil _ hne
    refine ⟨Occurrence.on i tag, ?_, Nat.le_of_lt hfirst, Nat.le_of_lt hlast⟩
    exact mem_occurrencesIn_iff.mpr ⟨i, line, hline, hread, List.mem_map.mpr ⟨tag, htag, rfl⟩⟩

/-! ## Sheltered blocks -/

/-- In a sheltered block the reader is inside backticks from the first line on. -/
theorem openBefore_of_sheltered (h : b.StandsIn lines) (hs : b.Sheltered lines) :
    ∀ k, b.first + 1 + k ≤ b.last →
      openBefore lines (b.first + 1 + k) = some .backticks := by
  intro k
  induction k with
  | zero =>
      intro _
      obtain ⟨opening, hopening, hopens⟩ := h.first_opens
      show openBefore lines (b.first + 1) = _
      rw [openBefore_succ hs.behind hopening, hs.outside]
      exact Fence.after_opening (ofLine?_of_opens hopens)
  | succ k ih =>
      intro hk
      obtain ⟨closing, hclosing, -⟩ := h.last_closes
      have hlen : b.last < lines.length := (List.getElem?_eq_some_iff.mp hclosing).1
      have hline : lines[b.first + 1 + k]? = some lines[b.first + 1 + k] :=
        List.getElem?_eq_getElem (by omega)
      have hbehind := hs.behind
      have hunbroken := hs.unbroken (b.first + 1 + k) _ (by omega) (by omega) hline
      show openBefore lines (b.first + 1 + k + 1) = _
      rw [openBefore_succ (by omega) hline, ih (by omega)]
      -- no line of the body is a fence of backticks, and tildes do not close one
      cases hfence : Fence.ofLine? lines[b.first + 1 + k] with
      | none => exact Fence.after_plain hfence
      | some f =>
          cases f with
          | backticks => exact absurd hfence hunbroken
          | tildes => exact Fence.after_other hfence (by decide)

/-- **A SHELTERED BLOCK** never tags its note. -/
theorem not_tags_of_sheltered (h : b.StandsIn lines) (hs : b.Sheltered lines) :
    ¬ b.Tags lines := by
  rw [tags_iff_leaks h]
  rintro ⟨i, line, hfirst, hlast, -, ⟨-, hstate, -⟩, -⟩
  obtain ⟨k, rfl⟩ := Nat.exists_eq_add_of_le (Nat.succ_le_of_lt hfirst)
  rw [openBefore_of_sheltered h hs k (Nat.le_of_lt hlast)] at hstate
  cases hstate

/-- A block inside backticks tags its note with the first line of its body: its opening
    fence closes them. -/
theorem tags_of_open_backticks (h : b.StandsIn lines) (hbehind : bodyStart lines ≤ b.first)
    (hopen : openBefore lines b.first = some .backticks) {line : Text}
    (hlast : b.first + 1 < b.last) (hline : lines[b.first + 1]? = some line)
    (hplain : Fence.ofLine? line = none) (htag : Tag.inline line ≠ []) : b.Tags lines := by
  rw [tags_iff_leaks h]
  obtain ⟨opening, hopening, hopens⟩ := h.first_opens
  refine ⟨b.first + 1, line, Nat.lt_succ_self _, hlast, hline, ⟨?_, ?_, ?_⟩, htag⟩
  · exact Nat.le_succ_of_le hbehind
  · rw [openBefore_succ hbehind hopening, hopen]
    exact Fence.after_closing (ofLine?_of_opens hopens)
  · intro line' hline'
    rw [hline] at hline'
    exact Option.some.inj hline' ▸ hplain

end Block

/-! ## The notes that host blocks -/

/-- **HOSTING**: a block of a note tags the note exactly when a line of its body bears a tag
    and is read; a sheltered block never does, and one that stands inside backticks does
    with a first line that bears a tag. -/
theorem block_tags_host_iff {text : Text} {b : Block} (hb : b ∈ blocks text) :
    (b.Tags (Text.lines text) ↔ b.Leaks (Text.lines text))
      ∧ (b.Sheltered (Text.lines text) → ¬ b.Tags (Text.lines text))
      ∧ (bodyStart (Text.lines text) ≤ b.first →
          openBefore (Text.lines text) b.first = some .backticks → b.first + 1 < b.last →
          ∀ line, (Text.lines text)[b.first + 1]? = some line →
            Fence.ofLine? line = none → Tag.inline line ≠ [] → b.Tags (Text.lines text)) := by
  have hstands := standsIn_of_mem_blocks hb
  refine ⟨Block.tags_iff_leaks hstands, Block.not_tags_of_sheltered hstands, ?_⟩
  intro hbehind hopen hlast line hline hplain htag
  exact Block.tags_of_open_backticks hstands hbehind hopen hlast hline hplain htag

/-- A directive on its own does not tag its note, although its body names a tag. -/
def plainNote : Text := "\x60\x60\x60add-summary\ntags: #a\n\x60\x60\x60".toList

/-- The same directive behind a fence that is still open. -/
def nestedNote : Text := "\x60\x60\x60\n".toList ++ plainNote

/-- A directive whose body opens a fence with a language. -/
def brokenNote : Text :=
  "\x60\x60\x60add-summary\n\x60\x60\x60python\n#a\n\x60\x60\x60".toList

theorem plain_and_nested_note :
    (⟨"tags: #a".toList, 0, 2⟩ ∈ blocks plainNote
      ∧ Block.Sheltered ⟨"tags: #a".toList, 0, 2⟩ (Text.lines plainNote)
      ∧ ¬ Block.Tags ⟨"tags: #a".toList, 0, 2⟩ (Text.lines plainNote))
    ∧ ⟨"tags: #a".toList, 1, 3⟩ ∈ blocks nestedNote
    ∧ Block.Tags ⟨"tags: #a".toList, 1, 3⟩ (Text.lines nestedNote) := by
  have hplain : (⟨"tags: #a".toList, 0, 2⟩ : Block) ∈ blocks plainNote := by
    decide +kernel
  have hnested : (⟨"tags: #a".toList, 1, 3⟩ : Block) ∈ blocks nestedNote := by
    decide +kernel
  have hsheltered : Block.Sheltered ⟨"tags: #a".toList, 0, 2⟩ (Text.lines plainNote) := by
    refine ⟨by decide +kernel, by decide +kernel, ?_⟩
    intro i line hfirst hlast hline
    have hi : i = 1 := by
      have h0 : 0 < i := hfirst
      have h2 : i < 2 := hlast
      omega
    have hbody : (Text.lines plainNote)[1]? = some "tags: #a".toList := by decide +kernel
    rw [hi, hbody] at hline
    rw [← Option.some.inj hline]
    decide +kernel
  refine ⟨⟨hplain, hsheltered, (block_tags_host_iff hplain).2.1 hsheltered⟩, hnested, ?_⟩
  exact (block_tags_host_iff hnested).2.2 (by decide +kernel) (by decide +kernel)
    (by decide +kernel) "tags: #a".toList (by decide +kernel) (by decide +kernel)
    (by decide +kernel)

/-- It is not so that no block ever tags its note: a fence with a language inside a block
    closes it for the reader of tags only. -/
theorem broken_note_tags_itself :
    ¬ ∀ text : Text, ∀ b ∈ blocks text, ∀ o ∈ occurrencesIn (Text.lines text),
        ¬ (b.first ≤ o.first ∧ o.first ≤ b.last) := by
  intro h
  have hblock : (⟨"\x60\x60\x60python\n#a".toList, 0, 3⟩ : Block) ∈ blocks brokenNote := by
    decide +kernel
  have hocc : Occurrence.on 2 "#a".toList ∈ occurrencesIn (Text.lines brokenNote) := by
    decide +kernel
  exact h brokenNote _ hblock _ hocc ⟨by decide, by decide⟩

end NoteDigest.Directive
