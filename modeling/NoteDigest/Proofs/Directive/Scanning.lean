import NoteDigest.Proofs.Directive.Delimiting

/-! # Scanning for blocks — where the blocks of a text stand

    Each block that is found is the next one behind those before it.  So it cuts the lines
    of its text into those above it, an opening fence, lines that close nothing, a closing
    fence, and those below it (`standsIn_of_mem_blocks`). -/

namespace NoteDigest.Directive

/-- A block stands in some lines: an opening fence, its body, a closing fence. -/
def Block.StandsIn (b : Block) (lines : List Text) : Prop :=
  ∃ before opening inner closing rest,
    lines = before ++ opening :: (inner ++ closing :: rest)
      ∧ opens opening = true ∧ closes closing = true
      ∧ (∀ line ∈ inner, closes line = false)
      ∧ b = ⟨Text.unlines inner, before.length, before.length + 1 + inner.length⟩

/-- Lines are those above one of them, this line, and those below it. -/
theorem eq_take_cons_drop {lines : List Text} {line : Text} {i : Nat}
    (h : lines[i]? = some line) : lines = lines.take i ++ line :: lines.drop (i + 1) := by
  have hdrop : lines.drop i = line :: lines.drop (i + 1) := by
    rw [List.drop_eq_getElem?_toList_append, h]
    rfl
  rw [← hdrop, List.take_append_drop]

/-- A block that is the next from some line on stands in the lines. -/
theorem Block.IsNext.standsIn {b : Block} {lines : List Text} {start : Nat}
    (h : b.IsNext lines start) : b.StandsIn lines := by
  obtain ⟨body, first, last⟩ := b
  obtain ⟨opening, hopening, hopens⟩ := h.first.line
  obtain ⟨closing, hclosing, hcloses⟩ := h.last.line
  have hlt : first < last := h.last.le
  have hnone : NoneIn closes lines (first + 1) last := h.last.none
  have hlast : last < lines.length := (List.getElem?_eq_some_iff.mp hclosing).1
  have hplain : ∀ line ∈ (lines.take last).drop (first + 1), closes line = false := by
    intro line hline
    obtain ⟨i, hi⟩ := List.mem_iff_getElem?.mp hline
    rw [List.getElem?_drop, List.getElem?_take] at hi
    split at hi
    · rename_i hilast
      exact hnone _ line (Nat.le_add_right _ _) hilast hi
    · cases hi
  have habove : lines.take last
      = lines.take first ++ opening :: (lines.take last).drop (first + 1) := by
    have hopening' : (lines.take last)[first]? = some opening := by
      rw [List.getElem?_take_of_lt hlt, hopening]
    have hcut := eq_take_cons_drop hopening'
    rwa [List.take_take, Nat.min_eq_left (Nat.le_of_lt hlt)] at hcut
  refine ⟨lines.take first, opening, (lines.take last).drop (first + 1), closing,
    lines.drop (last + 1), ?_, hopens, hcloses, hplain, ?_⟩
  · rw [← List.cons_append, ← List.append_assoc, ← habove]
    exact eq_take_cons_drop hclosing
  · have hbefore : (lines.take first).length = first := by
      rw [List.length_take]
      omega
    have hnumber : first + 1 + ((lines.take last).drop (first + 1)).length = last := by
      rw [List.length_drop, List.length_take]
      omega
    rw [hbefore, hnumber]
    exact congrArg (Block.mk · first last) h.body

/-- **EVERY BLOCK** found in a text stands in its lines. -/
theorem standsIn_of_mem_blocks {text : Text} {b : Block} (h : b ∈ blocks text) :
    b.StandsIn (Text.lines text) := by
  obtain ⟨before, after, hfound⟩ := List.append_of_mem h
  exact ((delimits_blocks text).each before b after hfound).standsIn

/-! ## By line numbers -/

namespace Block.StandsIn

variable {b : Block} {lines : List Text}

/-- The first line of a block is an opening fence. -/
theorem first_opens (h : b.StandsIn lines) :
    ∃ line, lines[b.first]? = some line ∧ opens line = true := by
  obtain ⟨before, opening, inner, closing, rest, rfl, hopens, -, -, rfl⟩ := h
  refine ⟨opening, ?_, hopens⟩
  simp

/-- The last line of a block is a closing fence. -/
theorem last_closes (h : b.StandsIn lines) :
    ∃ line, lines[b.last]? = some line ∧ closes line = true := by
  obtain ⟨before, opening, inner, closing, rest, rfl, -, hcloses, -, rfl⟩ := h
  refine ⟨closing, ?_, hcloses⟩
  have hindex : before.length + 1 + inner.length = before.length + (inner.length + 1) := by
    omega
  simp [hindex]

end Block.StandsIn
end NoteDigest.Directive
