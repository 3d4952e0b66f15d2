import NoteDigest.Proofs.Fragment.Rows
import NoteDigest.Proofs.Text.Sorting

/-! # Decoding — the lines of notes can be read off a summary

    A fragment has as many rows as its layout says (`Layout.height`), whatever its line and
    its note are, and the line is always the same one of them (`Layout.lineRow`), as it is or
    behind the mark of a callout.  So a summary is cut at every `height` rows, and the lines
    it was made from are found again, in order (`decode_aggregate`).  Two things are asked of
    what goes in: no newline hides in the lines, nor in the names of the notes.

    A callout alone is decoded whatever its text is (`text_of_callout`). -/

namespace NoteDigest

/-! ## Rows of a text -/

namespace Text

/-- The rows of a text: what each of its newlines ends. -/
def rows (text : Text) : List Text :=
  (lines text).dropLast

/-- Rows, each ended by a newline, are the rows of what they make up. -/
theorem rows_flatMap {rows : List Text} (h : ∀ row ∈ rows, '\n' ∉ row) :
    Text.rows (rows.flatMap (· ++ ['\n'])) = rows := by
  have hlines := lines_flatMap_append h []
  rw [List.append_nil] at hlines
  rw [Text.rows, hlines]
  exact List.dropLast_concat

end Text

/-! ## Blocks of one length -/

section Blocks

variable {α β : Type} {items : List α} {block : α → List β} {k : Nat}

theorem length_flatMap_of_length (h : ∀ a ∈ items, (block a).length = k) :
    (items.flatMap block).length = items.length * k := by
  induction items with
  | nil => exact (Nat.zero_mul k).symm
  | cons a rest ih =>
      obtain ⟨ha, hrest⟩ := List.forall_mem_cons.mp h
      rw [List.flatMap_cons, List.length_append, ha, ih hrest, List.length_cons, Nat.succ_mul,
        Nat.add_comm]

/-- What stands at one place of each block stands at regular distances. -/
theorem getElem?_flatMap_of_length {j : Nat} (hj : j < k) :
    ∀ {items : List α}, (∀ a ∈ items, (block a).length = k) → ∀ i,
      (items.flatMap block)[i * k + j]? = items[i]?.bind fun a => (block a)[j]? := by
  intro items
  induction items with
  | nil => exact fun _ _ => rfl
  | cons a rest ih =>
      intro h i
      obtain ⟨ha, hrest⟩ := List.forall_mem_cons.mp h
      rw [List.flatMap_cons]
      cases i with
      | zero =>
          rw [Nat.zero_mul, Nat.zero_add, List.getElem?_append_left (ha ▸ hj)]
          rfl
      | succ i =>
          have hlen : (block a).length ≤ (i + 1) * k + j := by
            rw [ha, Nat.succ_mul]
            omega
          have hbehind : (i + 1) * k + j - (block a).length = i * k + j := by
            rw [ha, Nat.succ_mul]
            omega
          rw [List.getElem?_append_right hlen, hbehind, ih hrest i]
          rfl

/-- A list is what stands at each of its places. -/
theorem filterMap_range_getElem? (f : α → β) (items : List α) :
    (List.range items.length).filterMap (fun i => items[i]?.map f) = items.map f := by
  induction items with
  | nil => rfl
  | cons a rest ih =>
      rw [List.length_cons, List.range_succ_eq_map, List.filterMap_cons, List.filterMap_map,
        List.map_cons, ← ih]
      rfl

end Blocks

/-! ## Layouts -/

namespace Layout

/-- The number of rows of a fragment. -/
def height : Layout → Nat
  | ⟨false, false⟩ => 3
  | ⟨true, false⟩ => 5
  | ⟨false, true⟩ => 5
  | ⟨true, true⟩ => 7

/-- The number of the row with the line, in a fragment. -/
def lineRow (layout : Layout) : Nat :=
  if layout.callout then 1 else 0

/-- What stands in front of the line, in its row. -/
def mark (layout : Layout) : Text :=
  if layout.callout then ['>', ' '] else []

/-- The lines that a summary was made from. -/
def decode (layout : Layout) (markdown : Text) : List Text :=
  let rows := Text.rows markdown
  (List.range (rows.length / layout.height)).filterMap fun i =>
    rows[i * layout.height + layout.lineRow]?.map (·.drop layout.mark.length)

theorem lineRow_lt_height (layout : Layout) : layout.lineRow < layout.height := by
  obtain ⟨link, callout⟩ := layout
  cases link <;> cases callout <;> decide

theorem height_pos (layout : Layout) : 0 < layout.height :=
  Nat.lt_of_le_of_lt (Nat.zero_le _) layout.lineRow_lt_height

end Layout

/-! ## Excerpts -/

/-- A line of a note and the tag that it is taken for. -/
structure Excerpt where
  line : Text
  tag : Tag
  note : NoteRef
  deriving Repr, DecidableEq

namespace Excerpt

variable {excerpt : Excerpt} {excerpts : List Excerpt}

/-- The fragment that an excerpt gives. -/
def fragment (layout : Layout) (excerpt : Excerpt) : Fragment :=
  Fragment.ofLine excerpt.line excerpt.tag excerpt.note layout

/-- No newline hides in the line, nor in the names of the note. -/
structure OneLine (excerpt : Excerpt) : Prop where
  line : '\n' ∉ excerpt.line
  path : '\n' ∉ excerpt.note.path
  name : '\n' ∉ excerpt.note.name

/-- Excerpts in the order in which their fragments come out. -/
def sort (excerpts : List Excerpt) : List Excerpt :=
  excerpts.mergeSort fun a b => Text.le a.tag b.tag

theorem sort_map_fragment (layout : Layout) (excerpts : List Excerpt) :
    Fragment.sort (excerpts.map (fragment layout)) = (sort excerpts).map (fragment layout) :=
  (List.map_mergeSort (f := fragment layout) fun _ _ _ _ => rfl).symm

theorem length_sort (excerpts : List Excerpt) : (sort excerpts).length = excerpts.length :=
  List.length_mergeSort excerpts

theorem mem_sort : excerpt ∈ sort excerpts ↔ excerpt ∈ excerpts :=
  List.mem_mergeSort

/-! ## The rows of a fragment -/

/-- The row with the link back to the note. -/
def linkRow (excerpt : Excerpt) : Text :=
  (Fragment.sourceLink (excerpt.line ++ ['\n']) excerpt.note).dropLast

/-- The rows of a fragment before it is wrapped. -/
def innerRows (layout : Layout) (excerpt : Excerpt) : List Text :=
  if layout.link then [excerpt.line, [], excerpt.linkRow] else [excerpt.line]

/-- The rows of a fragment. -/
def rows (layout : Layout) (excerpt : Excerpt) : List Text :=
  if layout.callout then
    (['>', ' ', '[', '!'] ++ excerpt.note.name ++ [']'])
      :: (excerpt.innerRows layout ++ [[]]).map (['>', ' '] ++ ·) ++ [[], []]
  else excerpt.innerRows layout ++ [[], []]

theorem OneLine.linkRow (h : excerpt.OneLine) :
    '\n' ∉ excerpt.linkRow
      ∧ Fragment.sourceLink (excerpt.line ++ ['\n']) excerpt.note = excerpt.linkRow ++ ['\n'] := by
  obtain ⟨row, hrow, hlink⟩ := Fragment.exists_row_sourceLink h.line h.path h.name
  rw [Excerpt.linkRow, hlink, List.dropLast_concat]
  exact ⟨hrow, rfl⟩

theorem OneLine.innerRows (h : excerpt.OneLine) (layout : Layout) :
    ∀ row ∈ excerpt.innerRows layout, '\n' ∉ row := by
  rw [Excerpt.innerRows]
  split
  · exact List.forall_mem_cons.mpr ⟨h.line, List.forall_mem_cons.mpr
      ⟨List.not_mem_nil, List.forall_mem_singleton.mpr h.linkRow.1⟩⟩
  · exact List.forall_mem_singleton.mpr h.line

/-- **NO ROW** of a fragment holds a newline. -/
theorem OneLine.rows (h : excerpt.OneLine) (layout : Layout) :
    ∀ row ∈ excerpt.rows layout, '\n' ∉ row := by
  rw [Excerpt.rows]
  split
  · intro row hrow
    simp only [List.cons_append, List.mem_cons, List.mem_append, List.mem_map] at hrow
    rcases hrow with rfl | ⟨inner, hinner | rfl | hnone, rfl⟩ | rfl | rfl | hnone
    · simp [h.name]
    · simp [h.innerRows layout inner hinner]
    · decide
    · cases hnone
    · exact List.not_mem_nil
    · exact List.not_mem_nil
    · cases hnone
  · intro row hrow
    rcases List.mem_append.mp hrow with hinner | hend
    · exact h.innerRows layout row hinner
    · simp only [List.mem_cons, List.not_mem_nil, or_false, or_self] at hend
      rw [hend]
      exact List.not_mem_nil

theorem length_rows (layout : Layout) (excerpt : Excerpt) :
    (excerpt.rows layout).length = layout.height := by
  obtain ⟨link, callout⟩ := layout
  cases link <;> cases callout <;> rfl

/-- The line stands in its row, behind the mark. -/
theorem getElem?_rows (layout : Layout) (excerpt : Excerpt) :
    (excerpt.rows layout)[layout.lineRow]? = some (layout.mark ++ excerpt.line) := by
  obtain ⟨link, callout⟩ := layout
  cases link <;> cases callout <;> rfl

end Excerpt

namespace Fragment

/-! ## Callouts -/

/-- A callout is the row of its title, and the lines of its text behind marks. -/
theorem callout_eq (text title : Text) :
    callout text title
      = ((['>', ' ', '[', '!'] ++ title ++ [']'])
          :: (Text.lines text).map (['>', ' '] ++ ·)).flatMap (· ++ ['\n']) := by
  rw [callout, List.flatMap_cons, List.flatMap_map]
  rfl

theorem rows_callout {title : Text} (htitle : '\n' ∉ title) (text : Text) :
    Text.rows (callout text title)
      = (['>', ' ', '[', '!'] ++ title ++ [']']) :: (Text.lines text).map (['>', ' '] ++ ·) := by
  rw [callout_eq, Text.rows_flatMap]
  refine List.forall_mem_cons.mpr ⟨by simp [htitle], List.forall_mem_map.mpr fun line hline => ?_⟩
  simp [Text.newline_notMem_of_mem_lines hline]

/-- **A CALLOUT IS DECODED**: its rows but the first, without their marks, are the lines of its
    text. -/
theorem text_of_callout {title : Text} (htitle : '\n' ∉ title) (text : Text) :
    Text.unlines ((Text.rows (callout text title)).tail.map (·.drop 2)) = text := by
  rw [rows_callout htitle, List.tail_cons, List.map_map]
  show Text.unlines ((Text.lines text).map id) = text
  rw [List.map_id, Text.unlines_lines]

/-! ## Fragments -/

/-- **A FRAGMENT IS ITS ROWS**, each ended by a newline. -/
theorem text_fragment {excerpt : Excerpt} (h : excerpt.OneLine) (layout : Layout) :
    (excerpt.fragment layout).text = (excerpt.rows layout).flatMap (· ++ ['\n']) := by
  have hlinked : (if layout.link then
      excerpt.line ++ ['\n'] ++ ['\n'] ++ sourceLink (excerpt.line ++ ['\n']) excerpt.note
      else excerpt.line ++ ['\n']) = (excerpt.innerRows layout).flatMap (· ++ ['\n']) := by
    rw [h.linkRow.2, Excerpt.innerRows]
    split <;> simp
  have hlines := Text.lines_flatMap_append (h.innerRows layout) []
  rw [List.append_nil, show Text.lines [] = [[]] from rfl] at hlines
  show (ofLine excerpt.line excerpt.tag excerpt.note layout).text = _
  simp only [ofLine, hlinked, Excerpt.rows]
  split
  · rw [callout_eq, hlines, List.flatMap_append]
    rfl
  · rw [List.flatMap_append]
    rfl

section Aggregate

variable {excerpts : List Excerpt} {layout : Layout}

/-- A summary is the rows of its fragments, in the order in which they come out. -/
theorem aggregate_eq_rows (h : ∀ excerpt ∈ excerpts, excerpt.OneLine) :
    aggregate (excerpts.map (Excerpt.fragment layout))
      = ((Excerpt.sort excerpts).flatMap (Excerpt.rows layout)).flatMap (· ++ ['\n']) := by
  rw [aggregate, Excerpt.sort_map_fragment, List.flatMap_map, List.flatMap_assoc]
  exact List.flatMap_congr fun excerpt hmem => text_fragment (h excerpt (Excerpt.mem_sort.mp hmem)) _

theorem rows_aggregate (h : ∀ excerpt ∈ excerpts, excerpt.OneLine) :
    Text.rows (aggregate (excerpts.map (Excerpt.fragment layout)))
      = (Excerpt.sort excerpts).flatMap (Excerpt.rows layout) := by
  rw [aggregate_eq_rows h]
  refine Text.rows_flatMap fun row hrow => ?_
  obtain ⟨excerpt, hmem, hrow⟩ := List.mem_flatMap.mp hrow
  exact (h excerpt (Excerpt.mem_sort.mp hmem)).rows layout row hrow

/-- The row of each line. -/
theorem getElem?_rows_aggregate (h : ∀ excerpt ∈ excerpts, excerpt.OneLine) (i : Nat) :
    (Text.rows (aggregate (excerpts.map (Excerpt.fragment layout))))[
        i * layout.height + layout.lineRow]?
      = (Excerpt.sort excerpts)[i]?.map fun excerpt => layout.mark ++ excerpt.line := by
  rw [rows_aggregate h, getElem?_flatMap_of_length layout.lineRow_lt_height
    fun excerpt _ => Excerpt.length_rows layout excerpt]
  simp only [Excerpt.getElem?_rows]
  exact Option.map_eq_bind.symm

/-- **SUMMARIES ARE DECODED**, for all excerpts whose lines and notes hold no newline:

    * their fragments come out in the order of the sorted excerpts, each as `height` rows that
      are ended by newlines, and together they have all the rows that there are;
    * the line of the `i`-th stands at the same place of the `i`-th block of rows, behind the
      mark;
    * so the lines can be read off, and fragments that make up the same summary were made
      from the same lines;
    * a callout with a title of one line is decoded whatever its text is. -/
theorem decode_aggregate (layout : Layout) (excerpts : List Excerpt)
    (h : ∀ excerpt ∈ excerpts, excerpt.OneLine) :
    let markdown := aggregate (excerpts.map (Excerpt.fragment layout))
    sort (excerpts.map (Excerpt.fragment layout))
        = (Excerpt.sort excerpts).map (Excerpt.fragment layout)
      ∧ (∀ excerpt ∈ excerpts,
          (excerpt.fragment layout).text
              = (Text.rows (excerpt.fragment layout).text).flatMap (· ++ ['\n'])
            ∧ (Text.rows (excerpt.fragment layout).text).length = layout.height)
      ∧ markdown = (Text.rows markdown).flatMap (· ++ ['\n'])
      ∧ (Text.rows markdown).length = excerpts.length * layout.height
      ∧ (∀ i, (Text.rows markdown)[i * layout.height + layout.lineRow]?
          = (Excerpt.sort excerpts)[i]?.map fun excerpt => layout.mark ++ excerpt.line)
      ∧ layout.decode markdown = (Excerpt.sort excerpts).map Excerpt.line
      ∧ ∀ text title, '\n' ∉ title →
          Text.unlines ((Text.rows (callout text title)).tail.map (·.drop 2)) = text := by
  have hlength : (Text.rows (aggregate (excerpts.map (Excerpt.fragment layout)))).length
      = excerpts.length * layout.height := by
    rw [rows_aggregate h,
      length_flatMap_of_length fun excerpt _ => Excerpt.length_rows layout excerpt,
      Excerpt.length_sort]
  refine ⟨Excerpt.sort_map_fragment layout excerpts, ?_, ?_, hlength, getElem?_rows_aggregate h,
    ?_, fun text title htitle => text_of_callout htitle text⟩
  · intro excerpt hmem
    have hone := h excerpt hmem
    rw [text_fragment hone, Text.rows_flatMap (hone.rows layout)]
    exact ⟨rfl, Excerpt.length_rows layout excerpt⟩
  · rw [rows_aggregate h]
    exact aggregate_eq_rows h
  · rw [Layout.decode, hlength, Nat.mul_div_cancel _ layout.height_pos, ← Excerpt.length_sort]
    simp only [getElem?_rows_aggregate h, Option.map_map]
    have hline : ((·.drop layout.mark.length) ∘ fun excerpt : Excerpt =>
        layout.mark ++ excerpt.line) = Excerpt.line :=
      funext fun excerpt => List.drop_left
    rw [hline, filterMap_range_getElem?]

end Aggregate

/-- Two excerpts of a note, the later tag first. -/
def travelExcerpts : List Excerpt :=
  [⟨"Rail #trip ^leg".toList, "#trip".toList, ⟨"notes/log.md".toList, "log".toList⟩⟩,
   ⟨"**Book** > two #hotel".toList, "#hotel".toList, ⟨"notes/log.md".toList, "log".toList⟩⟩]

/-- With links and callouts the two lines stand in the second and in the ninth of fourteen
    rows, and are found again there.  A text that looks like a callout can stand in one. -/
theorem travelExcerpts_decoded :
    (∀ excerpt ∈ travelExcerpts, excerpt.OneLine)
      ∧ (Text.rows (aggregate (travelExcerpts.map (Excerpt.fragment ⟨true, true⟩)))).length = 14
      ∧ (Text.rows (aggregate (travelExcerpts.map (Excerpt.fragment ⟨true, true⟩))))[8]?
        = some "> Rail #trip ^leg".toList
      ∧ (⟨true, true⟩ : Layout).decode
          (aggregate (travelExcerpts.map (Excerpt.fragment ⟨true, true⟩)))
        = ["**Book** > two #hotel".toList, "Rail #trip ^leg".toList]
      ∧ Text.unlines ((Text.rows (callout "one\n\n> two".toList "log".toList)).tail.map (·.drop 2))
        = "one\n\n> two".toList := by
  have hone : ∀ excerpt ∈ travelExcerpts, excerpt.OneLine := by
    refine List.forall_mem_cons.mpr ⟨⟨?_, ?_, ?_⟩, List.forall_mem_singleton.mpr ⟨?_, ?_, ?_⟩⟩ <;>
      decide
  have hsort : Excerpt.sort travelExcerpts = travelExcerpts.reverse := by
    have hswap : Excerpt.sort travelExcerpts = Excerpt.sort travelExcerpts.reverse :=
      Text.mergeSort_swap Excerpt.tag (by decide) [] []
    rw [hswap]
    exact List.mergeSort_of_pairwise (by decide)
  obtain ⟨-, -, -, hlength, hrow, hdecode, hcallout⟩ :=
    decode_aggregate ⟨true, true⟩ travelExcerpts hone
  rw [hsort] at hrow hdecode
  exact ⟨hone, hlength, hrow 1, hdecode, hcallout _ "log".toList (by decide)⟩

end Fragment
end NoteDigest
