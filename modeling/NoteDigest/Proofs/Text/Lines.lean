import NoteDigest.Proofs.Text.Pieces
import NoteDigest.Proofs.Text.Trim

/-! # Lines — texts as rows

    A text is its lines with newlines between them, and cutting and gluing undo each other:

    * the lines of a text, glued, are the text (`unlines_lines`);
    * rows, glued, have the lines of each row one after the other (`lines_unlines`);
    * a newline between two texts keeps their lines apart (`lines_append`). -/

namespace NoteDigest.Text

variable {text line : Text} {row : Text} {rows rows' : List Text}

/-! ## Lines -/

theorem lines_cons_newline (rest : Text) : lines ('\n' :: rest) = [] :: lines rest := rfl

/-- Any other character joins the first line of what follows it. -/
theorem lines_cons_of_ne {c : Char} (hc : c ≠ '\n') {rest first : Text} {others : List Text}
    (hrest : lines rest = first :: others) : lines (c :: rest) = (c :: first) :: others := by
  refine splitWhere_cons ?_ hrest
  simpa using hc

theorem lines_ne_nil (text : Text) : lines text ≠ [] :=
  splitWhere_ne_nil _ text

theorem newline_notMem_of_mem_lines (h : line ∈ lines text) : '\n' ∉ line :=
  notMem_of_mem_splitWhere h

theorem lines_of_newline_notMem (h : '\n' ∉ line) : lines line = [line] := by
  refine splitWhere_of_none fun c hc => beq_false_of_ne ?_
  rintro rfl
  exact h hc

/-- **A NEWLINE** between two texts keeps their lines apart. -/
theorem lines_append (text after : Text) :
    lines (text ++ '\n' :: after) = lines text ++ lines after :=
  splitWhere_append rfl text after

/-- There is one line more than there are newlines. -/
theorem length_lines (text : Text) : (lines text).length = text.count '\n' + 1 := by
  induction text with
  | nil => rfl
  | cons c rest ih =>
      by_cases hc : c = '\n'
      · rw [hc, lines_cons_newline, List.length_cons, ih, List.count_cons_self]
      · obtain ⟨first, others, hrest⟩ := List.exists_cons_of_ne_nil (lines_ne_nil rest)
        rw [hrest] at ih
        rw [lines_cons_of_ne hc hrest, List.count_cons_of_ne hc, ← ih]
        rfl

/-! ## Rows -/

theorem unlines_cons (row : Text) (hne : rows ≠ []) :
    unlines (row :: rows) = row ++ '\n' :: unlines rows :=
  joinWith_cons '\n' row hne

theorem unlines_append (hne : rows ≠ []) (hne' : rows' ≠ []) :
    unlines (rows ++ rows') = unlines rows ++ '\n' :: unlines rows' :=
  joinWith_append '\n' hne hne'

/-- **GLUED ROWS** have the lines of each row, one after the other. -/
theorem lines_unlines (hne : rows ≠ []) : lines (unlines rows) = rows.flatMap lines := by
  induction rows with
  | nil => exact absurd rfl hne
  | cons row others ih =>
      cases others with
      | nil => exact (List.flatMap_singleton lines row).symm
      | cons next others =>
          have hothers := ih (List.cons_ne_nil next others)
          rw [unlines_cons row (List.cons_ne_nil next others), lines_append, hothers]
          exact List.flatMap_cons.symm

/-- Rows without newlines are the lines of what they are glued to. -/
theorem lines_unlines_of_newline_notMem (hne : rows ≠ []) (h : ∀ row ∈ rows, '\n' ∉ row) :
    lines (unlines rows) = rows := by
  rw [lines_unlines hne]
  calc rows.flatMap lines
      = rows.flatMap fun row => [row] :=
        List.flatMap_congr fun row hrow => lines_of_newline_notMem (h row hrow)
    _ = rows := List.flatMap_singleton' rows

/-- Whole lines in front of a text are its first lines. -/
theorem lines_flatMap_append (h : ∀ row ∈ rows, '\n' ∉ row) (after : Text) :
    lines (rows.flatMap (· ++ ['\n']) ++ after) = rows ++ lines after := by
  induction rows with
  | nil => rfl
  | cons row others ih =>
      obtain ⟨hrow, hothers⟩ := List.forall_mem_cons.mp h
      rw [List.flatMap_cons, List.append_assoc, List.append_assoc, List.singleton_append,
        lines_append, lines_of_newline_notMem hrow, ih hothers, List.cons_append,
        List.nil_append, List.cons_append]

/-- **GLUED LINES** are the text. -/
theorem unlines_lines (text : Text) : unlines (lines text) = text :=
  joinWith_splitWhere '\n' text

/-! ## Endings -/

/-- Without the newlines at its end a text loses empty lines only. -/
theorem mem_lines_of_mem_lines_dropEnd (h : line ∈ lines (dropEndWhile (· == '\n') text)) :
    line ∈ lines text := by
  obtain ⟨ending, htext, hending⟩ := exists_ending (· == '\n') text
  cases ending with
  | nil =>
      rw [List.append_nil] at htext
      rwa [← htext] at h
  | cons c rest =>
      obtain rfl : c = '\n' := by simpa using hending c List.mem_cons_self
      rw [htext, lines_append]
      exact List.mem_append_left _ h

/-- What is trimmed holds no other characters. -/
theorem mem_of_mem_trim {c : Char} (h : c ∈ trim text) : c ∈ text :=
  (List.dropWhile_suffix isBlank).mem ((trim_isPrefix text).mem h)

end NoteDigest.Text
