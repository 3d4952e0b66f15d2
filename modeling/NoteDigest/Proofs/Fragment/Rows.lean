import NoteDigest.Proofs.Fragment.Excerpts
import NoteDigest.Proofs.Text.Lines

/-! # Rows — fragments are whole lines, and none of them is a fence

    The scanner takes tags from lines that are no fences, so what a fragment quotes is no
    fence.  What a layout puts around it is none either: the link starts with a word, the
    lines of a callout with an angle bracket.  So a fragment is a text of whole lines
    without fences (`unfenced_ofLine`), whatever the layout, as long as the note is *tidy*:
    no newline hides in its names or its lines, and its occurrences are those of its
    lines. -/

namespace NoteDigest

open Note (Fence)

/-! ## Texts of whole lines -/

/-- The text consists of whole lines, none of which is a fence. -/
def Unfenced (text : Text) : Prop :=
  ∃ rows : List Text, (∀ row ∈ rows, '\n' ∉ row ∧ Fence.ofLine? row = none)
    ∧ text = rows.flatMap (· ++ ['\n'])

namespace Unfenced

variable {text text' line : Text}

theorem row (hline : '\n' ∉ line) (hfence : Fence.ofLine? line = none) :
    Unfenced (line ++ ['\n']) :=
  ⟨[line], List.forall_mem_singleton.mpr ⟨hline, hfence⟩, by simp⟩

theorem newline : Unfenced ['\n'] :=
  row List.not_mem_nil (by decide)

theorem append (h : Unfenced text) (h' : Unfenced text') : Unfenced (text ++ text') := by
  obtain ⟨rows, hrows, rfl⟩ := h
  obtain ⟨rows', hrows', rfl⟩ := h'
  exact ⟨rows ++ rows', List.forall_mem_append.mpr ⟨hrows, hrows'⟩, List.flatMap_append.symm⟩

theorem flatMap {α : Type} {items : List α} {f : α → Text} (h : ∀ item ∈ items, Unfenced (f item)) :
    Unfenced (items.flatMap f) := by
  induction items with
  | nil => exact ⟨[], List.forall_mem_nil _, rfl⟩
  | cons item rest ih =>
      obtain ⟨hitem, hrest⟩ := List.forall_mem_cons.mp h
      rw [List.flatMap_cons]
      exact append hitem (ih hrest)

/-- **NO FENCE** is among the lines. -/
theorem ofLine?_eq_none (h : Unfenced text) :
    ∀ line ∈ Text.lines text, Fence.ofLine? line = none := by
  obtain ⟨rows, hrows, rfl⟩ := h
  induction rows with
  | nil => exact List.forall_mem_singleton.mpr (by decide)
  | cons row rest ih =>
      obtain ⟨⟨hnewline, hfence⟩, hrest⟩ := List.forall_mem_cons.mp hrows
      rw [List.flatMap_cons, List.append_assoc, List.singleton_append, Text.lines_append,
        Text.lines_of_newline_notMem hnewline]
      exact List.forall_mem_append.mpr ⟨List.forall_mem_singleton.mpr hfence, ih hrest⟩

end Unfenced

/-- A line that starts with anything but a blank, a backtick or a tilde is no fence. -/
theorem ofLine?_cons_eq_none {c : Char} (hblank : Text.isBlank c = false) (hbacktick : c ≠ '\x60')
    (htilde : c ≠ '~') (rest : Text) : Fence.ofLine? (c :: rest) = none := by
  have hdrop : (c :: rest).dropWhile Text.isBlank = c :: rest :=
    List.dropWhile_cons_of_neg (Bool.eq_false_iff.mp hblank)
  rw [Fence.ofLine?, hdrop]
  simp [hbacktick.symm, htilde.symm]

namespace Fragment

/-! ## What a link is made of -/

theorem newline_notMem_of_toNewline? {text name : Text} (h : toNewline? text = some name) :
    '\n' ∉ name := by
  induction text generalizing name with
  | nil => cases h
  | cons c rest ih =>
      rw [toNewline?] at h
      split at h
      · rw [← Option.some.inj h]
        exact List.not_mem_nil
      · rename_i hc
        split at h
        · cases h
        · obtain ⟨name', hname', rfl⟩ := Option.map_eq_some_iff.mp h
          have hne : '\n' ≠ c := by
            rintro rfl
            exact hc rfl
          exact List.not_mem_cons_of_ne_of_not_mem hne (ih hname')

/-- The anchor of a row has no newline in it, though its name may start with any
    character. -/
theorem newline_notMem_of_anchor? {line name : Text} (hline : '\n' ∉ line)
    (h : anchor? (line ++ ['\n']) = some name) : '\n' ∉ name := by
  induction line with
  | nil => cases h
  | cons c rest ih =>
      have hrest : '\n' ∉ rest := fun hmem => hline (List.mem_cons_of_mem c hmem)
      rw [List.cons_append, anchor?] at h
      split at h
      · split at h
        · rename_i name' hname'
          rw [← Option.some.inj h]
          refine fun hmem => ?_
          have hmem : '\n' ∈ name' := Text.mem_of_mem_trim hmem
          -- the name goes up to the end of the line, and its first letter is in the line too
          cases rest with
          | nil => cases hname'
          | cons d rest =>
              rw [List.cons_append, anchorName?] at hname'
              split at hname'
              · cases hname'
              · obtain ⟨name'', hname'', rfl⟩ := Option.map_eq_some_iff.mp hname'
                rcases List.mem_cons.mp hmem with rfl | hmem
                · exact hrest List.mem_cons_self
                · exact newline_notMem_of_toNewline? hname'' hmem
        · exact ih hrest h
      · exact ih hrest h

/-- Two stars stand behind a bold run, so it does not reach the end of the text. -/
theorem mem_dropLast_of_toStars? {text run : Text} (h : toStars? text = some run) :
    ∀ c ∈ run, c ∈ text.dropLast := by
  rw [toStars?] at h
  split at h
  · rename_i hstars
    obtain ⟨-, hstars⟩ := Bool.and_eq_true_iff.mp hstars
    have hne : text.dropWhile (· != '*') ≠ [] := by
      intro hnil
      rw [hnil] at hstars
      cases hstars
    rw [← Option.some.inj h]
    intro c hc
    rw [← List.takeWhile_append_dropWhile (p := (· != '*')) (l := text),
      List.dropLast_append_of_ne_nil hne]
    exact List.mem_append_left _ hc
  · cases h

theorem mem_dropLast_cons {c d : Char} {rest : Text} (h : d ∈ rest.dropLast) :
    d ∈ (c :: rest).dropLast := by
  cases rest with
  | nil => cases h
  | cons e rest => exact List.mem_cons_of_mem c h

theorem mem_dropLast_of_bold? {text bold : Text} (h : bold? text = some bold) :
    ∀ c ∈ bold, c ∈ text.dropLast := by
  fun_induction bold? text with
  | case1 => cases h
  | case2 inner run hrun =>
      rw [← Option.some.inj h]
      intro c hc
      have hinner : c ∈ inner.dropLast := mem_dropLast_of_toStars? hrun c (Text.mem_of_mem_trim hc)
      exact mem_dropLast_cons (mem_dropLast_cons hinner)
  | case3 inner hrun ih => exact fun c hc => mem_dropLast_cons (ih h c hc)
  | case4 c rest hstars ih => exact fun c hc => mem_dropLast_cons (ih h c hc)

theorem nonempty?_eq_some {text? : Option Text} {text : Text} (h : nonempty? text? = some text) :
    text? = some text := by
  cases text? with
  | none => cases h
  | some found =>
      cases found with
      | nil => cases h
      | cons c rest => exact h

/-! ## What a fragment is made of -/

section Layout

variable {line title : Text} {note : NoteRef}

/-- A link is one row, which starts with a word. -/
theorem exists_row_sourceLink (hline : '\n' ∉ line) (hpath : '\n' ∉ note.path)
    (hname : '\n' ∉ note.name) :
    ∃ row, '\n' ∉ 'S' :: row ∧ sourceLink (line ++ ['\n']) note = 'S' :: row ++ ['\n'] := by
  have hanchor : ∀ anchor, nonempty? (anchor? (line ++ ['\n'])) = some anchor → '\n' ∉ anchor :=
    fun anchor h => newline_notMem_of_anchor? hline (nonempty?_eq_some h)
  have hbold : ∀ bold, nonempty? (bold? (line ++ ['\n'])) = some bold → '\n' ∉ bold := by
    intro bold h hmem
    have hdrop := mem_dropLast_of_bold? (nonempty?_eq_some h) '\n' hmem
    rw [List.dropLast_concat] at hdrop
    exact hline hdrop
  -- whatever is linked to, the link is one row
  have hrow : ∀ target shown : Text, '\n' ∉ target → '\n' ∉ shown →
      ∃ row, '\n' ∉ 'S' :: row
        ∧ "Source: **[[".toList ++ target ++ ['|'] ++ shown ++ "]]**\n".toList
          = 'S' :: row ++ ['\n'] := by
    intro target shown htarget hshown
    refine ⟨"ource: **[[".toList ++ target ++ ['|'] ++ shown ++ "]]**".toList, ?_, by simp⟩
    simp [htarget, hshown]
  refine hrow _ _ ?_ ?_
  · split
    · rename_i anchor h
      simp [hpath, hanchor anchor h]
    · exact hpath
  · split
    · rename_i bold h
      exact hbold bold h
    · rename_i anchor _ h
      simp [hname, hanchor anchor h]
    · exact hname

theorem unfenced_sourceLink (hline : '\n' ∉ line) (hpath : '\n' ∉ note.path)
    (hname : '\n' ∉ note.name) : Unfenced (sourceLink (line ++ ['\n']) note) := by
  obtain ⟨row, hrow, hlink⟩ := exists_row_sourceLink hline hpath hname
  rw [hlink]
  exact Unfenced.row hrow (ofLine?_cons_eq_none (by decide) (by decide) (by decide) _)

theorem unfenced_quoteLine (hline : '\n' ∉ line) : Unfenced (quoteLine line) := by
  have hnewline : '\n' ∉ '>' :: ' ' :: line := by simp [hline]
  exact Unfenced.row hnewline (ofLine?_cons_eq_none (by decide) (by decide) (by decide) _)

/-- A callout has no fences, whatever its text. -/
theorem unfenced_callout (htitle : '\n' ∉ title) (text : Text) : Unfenced (callout text title) := by
  have hhead : '\n' ∉ ['[', '!'] ++ title ++ [']'] := by simp [htitle]
  refine (unfenced_quoteLine hhead).append (Unfenced.flatMap fun row hrow => ?_)
  exact unfenced_quoteLine (Text.newline_notMem_of_mem_lines hrow)

/-- **A FRAGMENT** of a line that is no fence consists of whole lines without fences. -/
theorem unfenced_ofLine (hline : '\n' ∉ line) (hfence : Fence.ofLine? line = none)
    (hpath : '\n' ∉ note.path) (hname : '\n' ∉ note.name) (tag : Tag) (layout : Layout) :
    Unfenced (ofLine line tag note layout).text := by
  have hrow : Unfenced (line ++ ['\n']) := Unfenced.row hline hfence
  have hlinked : Unfenced (if layout.link then
      line ++ ['\n'] ++ ['\n'] ++ sourceLink (line ++ ['\n']) note else line ++ ['\n']) := by
    split
    · exact (hrow.append Unfenced.newline).append (unfenced_sourceLink hline hpath hname)
    · exact hrow
  have hend : Unfenced ['\n', '\n'] := Unfenced.newline.append Unfenced.newline
  rw [ofLine]
  refine Unfenced.append ?_ hend
  split
  · exact unfenced_callout hname _
  · exact hlinked

end Layout
end Fragment

/-! ## Tidy notes -/

/-- No newline hides in the names and the lines of a note, and its occurrences are those of
    its lines. -/
structure Note.Tidy (note : Note) : Prop where
  path : '\n' ∉ note.path
  name : '\n' ∉ note.name
  lines : ∀ line ∈ note.lines, '\n' ∉ line
  occurrences : note.occurrences = Note.occurrencesIn note.lines

/-- What is taken from a tidy note is a line that the scanner has read, and so no fence. -/
theorem Note.Tidy.excerpt {note : Note} (h : note.Tidy) {wanted : List Tag} {line : Text} {tag : Tag}
    (hexcerpt : (line, tag) ∈ note.excerpts wanted) :
    line ∈ note.lines ∧ Fence.ofLine? line = none := by
  obtain ⟨o, ho, -, hline, -⟩ := Note.mem_excerpts_iff.mp hexcerpt
  rw [h.occurrences] at ho
  obtain ⟨-, -, hreads, -⟩ := Note.exists_line_of_mem_occurrencesIn ho
  exact ⟨List.mem_of_getElem? hline, hreads.2.2 line hline⟩

/-- **THE FRAGMENTS** of tidy notes consist of whole lines without fences. -/
theorem unfenced_of_mem_fragments {notes : List Note} (h : ∀ note ∈ notes, note.Tidy)
    {query : Query} {layout : Layout} {fragment : Fragment}
    (hfragment : fragment ∈ query.fragments layout notes) : Unfenced fragment.text := by
  obtain ⟨note, hnote, hmem⟩ := List.mem_flatMap.mp hfragment
  obtain ⟨⟨line, tag⟩, hexcerpt, rfl⟩ := List.mem_map.mp hmem
  have htidy := h note hnote
  obtain ⟨hline, hfence⟩ := htidy.excerpt hexcerpt
  exact Fragment.unfenced_ofLine (htidy.lines line hline) hfence htidy.path htidy.name tag layout

end NoteDigest
