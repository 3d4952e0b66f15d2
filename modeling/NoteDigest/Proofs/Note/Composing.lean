import NoteDigest.Proofs.Note.Fences

/-! # Composing — the occurrences of a note, part by part

    The scanner's state in front of a line is all that it keeps of the lines before
    (`occurrencesFrom_append`), and it numbers lines from wherever it starts
    (`occurrencesFrom_add`).  Every occurrence stands on one line, and occurrences come in the
    order of their lines (`numbered_occurrencesFrom`), so those on a line that is read are the
    tags of this line (`filter_occurrencesIn`).

    So a note can be read in parts.  Where the first part does not end inside a fenced block
    and holds its front matter to the end, what follows it is scanned as body text: fences and
    tags count, delimiters of front matter do not (`occurrencesIn_append`).  A whole fenced
    block between the two adds nothing (`occurrencesFrom_fenced`). -/

namespace NoteDigest

/-- An occurrence, a number of lines further down. -/
def Occurrence.down (count : Nat) (o : Occurrence) : Occurrence :=
  ⟨o.tag, o.first + count, o.last + count⟩

namespace Note

variable {lines before after block : List Text} {line : Text} {number count : Nat}
  {within : Option Fence} {fence : Fence}

/-! ## Parts of a body -/

theorem lineOccurrences_add (number count : Nat) (line : Text) :
    lineOccurrences (number + count) line
      = (lineOccurrences number line).map (Occurrence.down count) := by
  rw [lineOccurrences, lineOccurrences, List.map_map]
  rfl

/-- **LINES FURTHER DOWN** have their occurrences further down. -/
theorem occurrencesFrom_add (count : Nat) (lines : List Text) (number : Nat)
    (within : Option Fence) :
    occurrencesFrom (number + count) within lines
      = (occurrencesFrom number within lines).map (Occurrence.down count) := by
  induction lines generalizing number within with
  | nil => rfl
  | cons line rest ih =>
      have hnext : number + count + 1 = number + 1 + count := by omega
      rw [occurrencesFrom_cons, occurrencesFrom_cons, List.map_append, hnext, ih]
      congr 1
      split
      · exact lineOccurrences_add number count line
      · rfl

/-- **ONE PART AFTER THE OTHER**: the second is scanned in the state that the first leaves. -/
theorem occurrencesFrom_append (before after : List Text) (number : Nat)
    (within : Option Fence) :
    occurrencesFrom number within (before ++ after)
      = occurrencesFrom number within before
        ++ occurrencesFrom (number + before.length) (Fence.afterAll within before) after := by
  induction before generalizing number within with
  | nil => rfl
  | cons line rest ih =>
      have hlength : number + (line :: rest).length = number + 1 + rest.length := by
        rw [List.length_cons]
        omega
      rw [List.cons_append, occurrencesFrom_cons, occurrencesFrom_cons, ih, hlength,
        List.append_assoc]
      rfl

/-! ## Line numbers -/

/-- Occurrences on single lines from line `start` on and in front of line `stop`, in the order
    of their lines. -/
structure Numbered (occurrences : List Occurrence) (start stop : Nat) : Prop where
  ordered : occurrences.Pairwise fun o later => o.first ≤ later.first
  single : ∀ o ∈ occurrences, o.first = o.last
  range : ∀ o ∈ occurrences, start ≤ o.first ∧ o.first < stop

theorem numbered_nil (start stop : Nat) : Numbered [] start stop :=
  ⟨List.Pairwise.nil, List.forall_mem_nil _, List.forall_mem_nil _⟩

theorem numbered_lineOccurrences (number : Nat) (line : Text) :
    Numbered (lineOccurrences number line) number (number + 1) := by
  have hon : ∀ o ∈ lineOccurrences number line, o.first = number ∧ o.last = number := by
    intro o ho
    obtain ⟨tag, -, rfl⟩ := List.mem_map.mp ho
    exact ⟨rfl, rfl⟩
  refine ⟨?_, fun o ho => ?_, fun o ho => ?_⟩
  · refine List.pairwise_of_forall_mem_list fun o ho later hlater => ?_
    exact Nat.le_of_eq ((hon o ho).1.trans (hon later hlater).1.symm)
  · rw [(hon o ho).1, (hon o ho).2]
  · rw [(hon o ho).1]
    exact ⟨Nat.le_refl _, Nat.lt_succ_self _⟩

/-- Occurrences that stand above others go in front of them. -/
theorem Numbered.append {occurrences others : List Occurrence} {start middle stop : Nat}
    (h : Numbered occurrences start middle) (h' : Numbered others middle stop)
    (hle : start ≤ middle) (hle' : middle ≤ stop) :
    Numbered (occurrences ++ others) start stop := by
  refine ⟨List.pairwise_append.mpr ⟨h.ordered, h'.ordered, fun o ho later hlater => ?_⟩, ?_, ?_⟩
  · exact Nat.le_of_lt (Nat.lt_of_lt_of_le (h.range o ho).2 (h'.range later hlater).1)
  · exact List.forall_mem_append.mpr ⟨h.single, h'.single⟩
  · refine List.forall_mem_append.mpr ⟨fun o ho => ?_, fun o ho => ?_⟩
    · exact ⟨(h.range o ho).1, Nat.lt_of_lt_of_le (h.range o ho).2 hle'⟩
    · exact ⟨Nat.le_trans hle (h'.range o ho).1, (h'.range o ho).2⟩

/-- **THE RUN** of the scanner numbers the lines one by one. -/
theorem numbered_occurrencesFrom (lines : List Text) (number : Nat) (within : Option Fence) :
    Numbered (occurrencesFrom number within lines) number (number + lines.length) := by
  induction lines generalizing number within with
  | nil => exact numbered_nil _ _
  | cons line rest ih =>
      have hlength : number + (line :: rest).length = number + 1 + rest.length := by
        rw [List.length_cons]
        omega
      have hline : Numbered (if within = none ∧ Fence.ofLine? line = none
          then lineOccurrences number line else []) number (number + 1) := by
        split
        · exact numbered_lineOccurrences number line
        · exact numbered_nil _ _
      rw [occurrencesFrom_cons, hlength]
      exact hline.append (ih (number + 1) _) (Nat.le_succ _) (Nat.le_add_right _ _)

theorem bodyStart_le_length (lines : List Text) : bodyStart lines ≤ lines.length := by
  cases lines with
  | nil => exact Nat.le_refl 0
  | cons first rest =>
      rw [bodyStart]
      split
      · split
        · rename_i i hclosing
          have hlt := (List.findIdx?_eq_some_iff_findIdx_eq.mp hclosing).1
          rw [List.length_cons]
          omega
        · exact Nat.zero_le _
      · exact Nat.zero_le _

theorem numbered_occurrencesIn (lines : List Text) :
    Numbered (occurrencesIn lines) 0 lines.length := by
  have hbody := numbered_occurrencesFrom (lines.drop (bodyStart lines)) (bodyStart lines) none
  have hlength : bodyStart lines + (lines.drop (bodyStart lines)).length = lines.length := by
    have hle := bodyStart_le_length lines
    rw [List.length_drop]
    omega
  rw [hlength] at hbody
  exact ⟨hbody.ordered, hbody.single, fun o ho => ⟨Nat.zero_le _, (hbody.range o ho).2⟩⟩

/-! ## One line of a note -/

theorem Numbered.filter_eq_nil {occurrences : List Occurrence} {start stop i : Nat}
    (h : Numbered occurrences start stop) (hi : i < start ∨ stop ≤ i) :
    occurrences.filter (·.first == i) = [] := by
  refine List.filter_eq_nil_iff.mpr fun o ho heq => ?_
  have hrange := h.range o ho
  rw [beq_iff_eq.mp heq] at hrange
  omega

/-- **THE OCCURRENCES ON A LINE** that is read are the tags of this line. -/
theorem filter_occurrencesIn {i : Nat} (hline : lines[i]? = some line)
    (hreads : ReadsLine lines i) :
    (occurrencesIn lines).filter (·.first == i) = lineOccurrences i line := by
  obtain ⟨hbody, houtside, hplain⟩ := hreads
  have hlt : i < lines.length := (List.getElem?_eq_some_iff.mp hline).1
  have hrest : lines.drop i = line :: lines.drop (i + 1) := by
    rw [List.drop_eq_getElem_cons hlt, (List.getElem?_eq_some_iff.mp hline).2]
  have hlength : bodyStart lines ≤ (lines.take i).length := by
    rw [List.length_take]
    omega
  have hnumber : bodyStart lines + ((lines.take i).drop (bodyStart lines)).length = i := by
    rw [List.length_drop, List.length_take]
    omega
  have hparts : lines.drop (bodyStart lines)
      = (lines.take i).drop (bodyStart lines) ++ line :: lines.drop (i + 1) := by
    rw [← List.drop_append_of_le_length hlength, ← hrest, List.take_append_drop]
  have habove := numbered_occurrencesFrom ((lines.take i).drop (bodyStart lines))
    (bodyStart lines) none
  rw [hnumber] at habove
  have hbelow := numbered_occurrencesFrom (lines.drop (i + 1)) (i + 1) (Fence.after none line)
  have hhere : (lineOccurrences i line).filter (·.first == i) = lineOccurrences i line := by
    refine List.filter_eq_self.mpr fun o ho => ?_
    obtain ⟨tag, -, rfl⟩ := List.mem_map.mp ho
    exact beq_self_eq_true i
  have hstate : Fence.afterAll none ((lines.take i).drop (bodyStart lines)) = none := houtside
  rw [occurrencesIn, hparts, occurrencesFrom_append, hnumber, hstate, occurrencesFrom_cons,
    if_pos ⟨rfl, hplain line hline⟩, List.filter_append, List.filter_append, hhere,
    habove.filter_eq_nil (.inr (Nat.le_refl i)), hbelow.filter_eq_nil (.inl (Nat.lt_succ_self i)),
    List.nil_append, List.append_nil]

/-! ## What stands behind the front matter -/

/-- Front matter that opens with the first of some lines is closed within them. -/
def HoldsFrontMatter (lines : List Text) : Prop :=
  ∀ first rest, lines = first :: rest → opensFrontMatter first = true →
    ∃ line ∈ rest, closesFrontMatter line = true

/-- Lines behind the front matter do not move its end. -/
theorem bodyStart_append (hne : before ≠ []) (hfront : HoldsFrontMatter before)
    (after : List Text) : bodyStart (before ++ after) = bodyStart before := by
  cases before with
  | nil => exact absurd rfl hne
  | cons first rest =>
      rw [List.cons_append, bodyStart, bodyStart]
      split
      · rename_i hopens
        obtain ⟨line, hline, hcloses⟩ := hfront first rest rfl hopens
        have hfound : (rest.findIdx? closesFrontMatter).isSome = true := by
          rw [List.findIdx?_isSome]
          exact List.any_eq_true.mpr ⟨line, hline, hcloses⟩
        obtain ⟨i, hi⟩ := Option.isSome_iff_exists.mp hfound
        rw [List.findIdx?_append, hi]
        rfl
      · rfl

/-- **BEHIND THE FRONT MATTER** and outside fenced blocks a note goes on with body text. -/
theorem occurrencesIn_append (hne : before ≠ []) (hfront : HoldsFrontMatter before)
    (houtside : openBefore before before.length = none) (after : List Text) :
    occurrencesIn (before ++ after)
      = occurrencesIn before ++ occurrencesFrom before.length none after := by
  have hle := bodyStart_le_length before
  have hlength : bodyStart before + (before.drop (bodyStart before)).length = before.length := by
    rw [List.length_drop]
    omega
  have hstate : Fence.afterAll none (before.drop (bodyStart before)) = none := by
    rw [openBefore, List.take_length] at houtside
    exact houtside
  rw [occurrencesIn, bodyStart_append hne hfront, List.drop_append_of_le_length hle,
    occurrencesFrom_append, hlength, hstate]
  rfl

/-! ## Fenced blocks -/

/-- A fenced block: a fence, lines that do not start with its marker, and a line that does. -/
def IsFenced (block : List Text) : Prop :=
  ∃ (fence : Fence) (opening : Text) (inner : List Text) (closing : Text),
    block = opening :: (inner ++ [closing])
      ∧ fence.marker <+: opening.dropWhile Text.isBlank
      ∧ (∀ line ∈ inner, ¬ fence.marker <+: line.dropWhile Text.isBlank)
      ∧ fence.marker <+: closing.dropWhile Text.isBlank

/-- Inside a fenced block lines without its marker do nothing. -/
theorem afterAll_inner {inner : List Text}
    (h : ∀ line ∈ inner, ¬ fence.marker <+: line.dropWhile Text.isBlank) :
    Fence.afterAll (some fence) inner = some fence
      ∧ ∀ number, occurrencesFrom number (some fence) inner = [] := by
  induction inner with
  | nil => exact ⟨rfl, fun _ => rfl⟩
  | cons line rest ih =>
      obtain ⟨hline, hrest⟩ := List.forall_mem_cons.mp h
      obtain ⟨hstate, hnone⟩ := ih hrest
      have hafter : Fence.after (some fence) line = some fence := by
        cases hfence : Fence.ofLine? line with
        | none => exact Fence.after_plain hfence
        | some other =>
            refine Fence.after_other hfence fun heq => hline ?_
            exact Fence.ofLine?_eq_some_iff.mp (heq ▸ hfence)
      refine ⟨?_, fun number => ?_⟩
      · rw [Fence.afterAll, List.foldl_cons, hafter]
        exact hstate
      · have hskip : ¬ (some fence = none ∧ Fence.ofLine? line = none) := by
          rintro ⟨⟨⟩, -⟩
        rw [occurrencesFrom_cons, hafter, hnone, if_neg hskip]
        rfl

/-- **A FENCED BLOCK** gives no occurrence, and behind it no block is open. -/
theorem occurrencesFrom_fenced (h : IsFenced block) (number : Nat) (after : List Text) :
    occurrencesFrom number none (block ++ after)
      = occurrencesFrom (number + block.length) none after := by
  obtain ⟨fence, opening, inner, closing, rfl, hopening, hinner, hclosing⟩ := h
  have hopens := Fence.ofLine?_eq_some_iff.mpr hopening
  have hcloses := Fence.ofLine?_eq_some_iff.mpr hclosing
  obtain ⟨hstate, hnone⟩ := afterAll_inner hinner
  have hlength : number + (opening :: (inner ++ [closing])).length
      = number + 1 + inner.length + 1 := by
    rw [List.length_cons, List.length_append, List.length_singleton]
    omega
  rw [hlength, List.cons_append, List.append_assoc, List.singleton_append,
    occurrencesFrom_cons, Fence.after_opening hopens, occurrencesFrom_append, hnone, hstate,
    occurrencesFrom_cons, Fence.after_closing hcloses, hopens, hcloses]
  rfl

/-! ## The note as a whole -/

/-- **PART BY PART**: behind lines that end outside fenced blocks and hold their front matter,
    other lines are scanned as body text, with their numbers moved down; a fenced block between
    the two adds no occurrence, and only moves the others further down.  In any note the
    occurrences stand on single lines of the note, in the order of these lines. -/
theorem occurrencesIn_part_by_part :
    (∀ before after, before ≠ [] → HoldsFrontMatter before →
        openBefore before before.length = none →
        occurrencesIn (before ++ after)
            = occurrencesIn before
              ++ (occurrencesFrom 0 none after).map (Occurrence.down before.length)
          ∧ ∀ block, IsFenced block →
            occurrencesIn (before ++ block ++ after)
              = occurrencesIn before
                ++ (occurrencesFrom 0 none after).map
                  (Occurrence.down (before.length + block.length)))
      ∧ ∀ lines, (occurrencesIn lines).Pairwise (fun o later => o.first ≤ later.first)
          ∧ ∀ o ∈ occurrencesIn lines, o.first < lines.length ∧ o.first = o.last := by
  have hshift : ∀ (count : Nat) (after : List Text),
      (occurrencesFrom 0 none after).map (Occurrence.down count)
        = occurrencesFrom count none after := by
    intro count after
    rw [← occurrencesFrom_add, Nat.zero_add]
  refine ⟨fun before after hne hfront houtside => ⟨?_, fun block hblock => ?_⟩, fun lines => ?_⟩
  · rw [hshift, occurrencesIn_append hne hfront houtside]
  · rw [hshift, List.append_assoc, occurrencesIn_append hne hfront houtside,
      occurrencesFrom_fenced hblock]
  · have hnumbered := numbered_occurrencesIn lines
    exact ⟨hnumbered.ordered, fun o ho => ⟨(hnumbered.range o ho).2, hnumbered.single o ho⟩⟩

/-- Front matter, a tag and a whole fenced block. -/
def upperPart : List Text :=
  ["---".toList, "tags: #x".toList, "...".toList, "a #b".toList, "~~~".toList, "#c".toList,
    " ~~~ #d".toList]

/-- A block that holds a fence of the other kind. -/
def fencedPart : List Text :=
  ["\t\x60\x60\x60py".toList, "#e".toList, "~~~".toList, "\x60\x60\x60\x60".toList]

/-- Delimiters of front matter, which are body text here, around a tag. -/
def lowerPart : List Text :=
  ["---".toList, "#f/ #g".toList, "---".toList]

theorem parts_put_together :
    upperPart ≠ [] ∧ HoldsFrontMatter upperPart ∧ openBefore upperPart upperPart.length = none
      ∧ IsFenced fencedPart
      ∧ occurrencesIn (upperPart ++ fencedPart ++ lowerPart)
        = [.on 3 "#b".toList, .on 12 "#f".toList, .on 12 "#g".toList] := by
  have hne : upperPart ≠ [] := List.cons_ne_nil _ _
  have hfront : HoldsFrontMatter upperPart := by
    rintro _ _ ⟨⟩ -
    exact ⟨"...".toList, by decide, by decide⟩
  have houtside : openBefore upperPart upperPart.length = none := by decide +kernel
  have hblock : IsFenced fencedPart := by
    refine ⟨.backticks, _, ["#e".toList, "~~~".toList], _, rfl, by decide, ?_, by decide⟩
    decide
  refine ⟨hne, hfront, houtside, hblock, ?_⟩
  rw [(occurrencesIn_part_by_part.1 upperPart lowerPart hne hfront houtside).2 fencedPart hblock]
  decide +kernel

end Note
end NoteDigest
