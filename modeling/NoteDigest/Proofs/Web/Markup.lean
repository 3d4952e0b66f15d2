import NoteDigest.Proofs.Web.Pages

/-! # Markup — what notes cannot change in a page

    The names, the paths and the texts of notes stand in pages with every mark of HTML written
    as an entity.  Two things follow, whatever they hold.

    * They add no `<`, `>` or `"` to a page, so pages with the same outline have the same
      sequence of these marks (`marks_renderPage`).
    * They can be told from the markup around them, as that goes on with a mark behind each of
      them (`IsFramed`).  A page is read with the outline alone (`placeholders?`), and when
      the entities are undone nothing is lost, not even entities that stood in the texts
      before (`unescape_escape`).

    Both hold of the two pages there are (`texts_leave_markup`). -/

namespace NoteDigest.Web

variable {c : Char} {pieces template rest : List Piece}

/-! ## Entities -/

/-- A text with the five entities undone, from left to right. -/
def unescape : Text → Text
  | '&' :: 'a' :: 'm' :: 'p' :: ';' :: rest => '&' :: unescape rest
  | '&' :: 'l' :: 't' :: ';' :: rest => '<' :: unescape rest
  | '&' :: 'g' :: 't' :: ';' :: rest => '>' :: unescape rest
  | '&' :: '#' :: '3' :: '4' :: ';' :: rest => '"' :: unescape rest
  | '&' :: '#' :: '3' :: '9' :: ';' :: rest => '\'' :: unescape rest
  | c :: rest => c :: unescape rest
  | [] => []

/-- Nothing but an entity is undone. -/
theorem unescape_cons (h : c ≠ '&') (rest : Text) : unescape (c :: rest) = c :: unescape rest := by
  rw [unescape.eq_def]
  split <;> simp_all

/-- A character that is escaped comes back, whatever stands behind it. -/
theorem unescape_escapeChar (c : Char) (rest : Text) :
    unescape (escapeChar c ++ rest) = c :: unescape rest := by
  rw [escapeChar.eq_def]
  split
  · rfl
  · rfl
  · rfl
  · rfl
  · rfl
  · rename_i hamp _ _ _ _
    exact unescape_cons hamp rest

/-- **ESCAPING IS UNDONE** exactly, also in texts that hold entities already. -/
theorem unescape_escape (text : Text) : unescape (escape text) = text := by
  induction text with
  | nil => rfl
  | cons c rest ih =>
      rw [escape, List.flatMap_cons, unescape_escapeChar]
      exact congrArg (c :: ·) ih

/-! ## Marks -/

/-- The characters that set markup off from text. -/
def isMark (c : Char) : Bool :=
  c == '<' || c == '>' || c == '"'

/-- The marks of a page, in order. -/
def marks (page : Text) : Text :=
  page.filter isMark

/-- Texts that are filled in bring no marks. -/
theorem isMark_of_mem_escape {text : Text} (h : c ∈ escape text) : isMark c = false := by
  obtain ⟨hopening, hclosing, hquote⟩ := notMem_escape text
  simp only [isMark, Bool.or_eq_false_iff, beq_eq_false_iff_ne]
  refine ⟨⟨?_, ?_⟩, ?_⟩
  · rintro rfl
    exact hopening h
  · rintro rfl
    exact hclosing h
  · rintro rfl
    exact hquote h

theorem marks_escape (text : Text) : marks (escape text) = [] := by
  refine List.filter_eq_nil_iff.mpr fun c hc => ?_
  simp [isMark_of_mem_escape hc]

theorem marks_append (page more : Text) : marks (page ++ more) = marks page ++ marks more :=
  List.filter_append page more

/-! ## Outlines -/

/-- A piece without the text that is filled in. -/
def Piece.outline : Piece → Piece
  | .markup source => .markup source
  | .filled _ => .filled []

/-- The text that is filled in. -/
def Piece.text? : Piece → Option Text
  | .markup _ => none
  | .filled text => some text

/-- **THE OUTLINE ALONE** gives the marks of a page. -/
theorem marks_renderPage (pieces : List Piece) :
    marks (renderPage pieces) = marks (renderPage (pieces.map Piece.outline)) := by
  induction pieces with
  | nil => rfl
  | cons piece rest ih =>
      have hpiece : marks piece.render = marks piece.outline.render := by
        cases piece with
        | markup source => rfl
        | filled text => exact marks_escape text
      show marks (piece.render ++ renderPage rest)
        = marks (piece.outline.render ++ renderPage (rest.map Piece.outline))
      rw [marks_append, marks_append, hpiece, ih]

theorem marks_eq_of_outline (h : pieces.map Piece.outline = template.map Piece.outline) :
    marks (renderPage pieces) = marks (renderPage template) := by
  rw [marks_renderPage, h, ← marks_renderPage]

/-! ## Reading a page by its outline -/

/-- What stands in a page in the places of the texts of a template: each up to the next mark.
    There must be nothing else in the page than the markup of the template. -/
def placeholders? : (template : List Piece) → (page : Text) → Option (List Text)
  | [], [] => some []
  | [], _ :: _ => none
  | .markup source :: rest, page => (Text.after? source.toList page).bind (placeholders? rest)
  | .filled _ :: rest, page =>
      (placeholders? rest (page.dropWhile (!isMark ·))).map (page.takeWhile (!isMark ·) :: ·)

/-- The texts of the template make no difference. -/
theorem placeholders?_outline (template : List Piece) :
    placeholders? (template.map Piece.outline) = placeholders? template := by
  induction template with
  | nil => rfl
  | cons piece rest ih =>
      funext page
      cases piece with
      | markup source =>
          show (Text.after? source.toList page).bind (placeholders? (rest.map Piece.outline)) = _
          rw [ih]
          rfl
      | filled text =>
          show (placeholders? (rest.map Piece.outline) _).map _ = _
          rw [ih]
          rfl

/-- The pieces go on with a mark. -/
def startsWithMark : List Piece → Bool
  | .markup source :: _ => source.toList.head?.any isMark
  | _ => false

/-- Behind every text that is filled in the pieces go on with a mark. -/
def IsFramed : List Piece → Bool
  | [] => true
  | .markup _ :: rest => IsFramed rest
  | .filled _ :: rest => startsWithMark rest && IsFramed rest

/-- Framed pieces do not end with a text, so more can follow. -/
theorem isFramed_append (h : IsFramed pieces = true) (more : List Piece) :
    IsFramed (pieces ++ more) = IsFramed more := by
  induction pieces with
  | nil => rfl
  | cons piece rest ih =>
      cases piece with
      | markup source => exact ih h
      | filled text =>
          rw [IsFramed, Bool.and_eq_true] at h
          obtain ⟨hmark, hrest⟩ := h
          have hstarts : startsWithMark (rest ++ more) = true := by
            cases rest with
            | nil => cases hmark
            | cons next others =>
                cases next with
                | markup source => exact hmark
                | filled text => cases hmark
          rw [List.cons_append, IsFramed, hstarts, ih hrest]
          rfl

theorem exists_mark_of_startsWithMark (h : startsWithMark rest = true) :
    ∃ mark page, renderPage rest = mark :: page ∧ isMark mark = true := by
  cases rest with
  | nil => cases h
  | cons piece others =>
      cases piece with
      | filled text => cases h
      | markup source =>
          rw [startsWithMark] at h
          cases hsource : source.toList with
          | nil =>
              rw [hsource] at h
              cases h
          | cons mark behind =>
              rw [hsource] at h
              refine ⟨mark, behind ++ renderPage others, ?_, h⟩
              rw [renderPage, List.flatMap_cons, Piece.render, hsource]
              rfl

/-- A text that is filled in ends where the next mark stands. -/
theorem cut_at_mark (h : startsWithMark rest = true) (text : Text) :
    (escape text ++ renderPage rest).takeWhile (!isMark ·) = escape text
      ∧ (escape text ++ renderPage rest).dropWhile (!isMark ·) = renderPage rest := by
  obtain ⟨mark, page, hpage, hmark⟩ := exists_mark_of_startsWithMark h
  have htext : ∀ c ∈ escape text, (!isMark c) = true := by
    intro c hc
    rw [isMark_of_mem_escape hc]
    rfl
  rw [hpage, List.takeWhile_append_of_pos htext, List.dropWhile_append_of_pos htext]
  simp [hmark]

/-- **WHAT WAS FILLED IN** stands in the page of framed pieces, and is found there. -/
theorem placeholders?_renderPage (h : IsFramed pieces = true) :
    placeholders? pieces (renderPage pieces) = some ((pieces.filterMap Piece.text?).map escape) := by
  induction pieces with
  | nil => rfl
  | cons piece rest ih =>
      rw [renderPage, List.flatMap_cons]
      cases piece with
      | markup source =>
          rw [placeholders?, Piece.render, Text.after?_append, Option.bind_some]
          exact ih h
      | filled text =>
          rw [IsFramed, Bool.and_eq_true] at h
          obtain ⟨hmark, hrest⟩ := h
          obtain ⟨htake, hdrop⟩ := cut_at_mark hmark text
          rw [placeholders?, Piece.render, ← renderPage, htake, hdrop, ih hrest]
          rfl

/-- It is found by the outline alone, and comes back when the entities are undone. -/
theorem unescaped_placeholders (h : IsFramed pieces = true)
    (houtline : template.map Piece.outline = pieces.map Piece.outline) :
    (placeholders? template (renderPage pieces)).map (List.map unescape)
      = some (pieces.filterMap Piece.text?) := by
  rw [← placeholders?_outline, houtline, placeholders?_outline, placeholders?_renderPage h,
    Option.map_some, List.map_map]
  have hundone : unescape ∘ escape = id := funext unescape_escape
  rw [hundone, List.map_id]

/-! ## The two pages -/

/-- A message is shown, and no markdown. -/
def Shown.isMessage : Shown → Bool
  | .message _ => true
  | .markdown _ => false

/-- The text that is shown. -/
def Shown.text : Shown → Text
  | .message text => text
  | .markdown text => text

/-- The texts that are filled into the page of a note: its name twice, its path, and what is
    shown of it. -/
def noteTexts (note : NoteRef) (shown : Shown) : List Text :=
  [note.name, note.name, note.path, shown.text]

/-- The texts that are filled into the page of all notes. -/
def indexTexts (notes : List NoteRef) : List Text :=
  notes.flatMap fun note => [note.path, note.name, note.path]

section Note

variable (note note' : NoteRef) (shown : Shown)

theorem isFramed_notePieces : IsFramed (notePieces note shown) = true := by
  cases shown <;> rfl

theorem filterMap_notePieces :
    (notePieces note shown).filterMap Piece.text? = noteTexts note shown := by
  cases shown <;> rfl

theorem outline_notePieces {shown shown' : Shown} (h : shown.isMessage = shown'.isMessage) :
    (notePieces note shown).map Piece.outline = (notePieces note' shown').map Piece.outline := by
  cases shown with
  | markdown text =>
      cases shown' with
      | markdown text' => rfl
      | message text' => cases h
  | message text =>
      cases shown' with
      | markdown text' => cases h
      | message text' => rfl

end Note

section Index

variable (notes : List NoteRef)

theorem isFramed_indexItems : IsFramed (notes.flatMap indexItem) = true := by
  induction notes with
  | nil => rfl
  | cons note rest ih =>
      have hitem : IsFramed (indexItem note) = true := rfl
      rw [List.flatMap_cons, isFramed_append hitem]
      exact ih

theorem isFramed_indexPieces : IsFramed (indexPieces notes) = true := by
  cases notes with
  | nil => rfl
  | cons note rest =>
      show IsFramed ((note :: rest).flatMap indexItem ++ _ ++ _) = true
      rw [List.append_assoc, isFramed_append (isFramed_indexItems (note :: rest))]
      rfl

theorem filterMap_indexPieces : (indexPieces notes).filterMap Piece.text? = indexTexts notes := by
  cases notes with
  | nil => rfl
  | cons note rest =>
      show ((note :: rest).flatMap indexItem ++ _ ++ _).filterMap Piece.text? = _
      rw [List.filterMap_append, List.filterMap_append, List.filterMap_flatMap]
      exact (List.append_nil _).trans (List.append_nil _)

/-- One item has the outline of every other. -/
theorem outline_indexItems {notes notes' : List NoteRef} (h : notes.length = notes'.length) :
    (notes.flatMap indexItem).map Piece.outline = (notes'.flatMap indexItem).map Piece.outline := by
  induction notes generalizing notes' with
  | nil =>
      rw [List.length_eq_zero_iff.mp h.symm]
  | cons note rest ih =>
      cases notes' with
      | nil => cases h
      | cons note' rest' =>
          rw [List.flatMap_cons, List.flatMap_cons, List.map_append, List.map_append,
            ih (Nat.succ.inj h)]
          rfl

theorem outline_indexPieces {notes notes' : List NoteRef} (h : notes.length = notes'.length) :
    (indexPieces notes).map Piece.outline = (indexPieces notes').map Piece.outline := by
  have hitems := outline_indexItems h
  cases notes with
  | nil => rw [List.length_eq_zero_iff.mp h.symm]
  | cons note rest =>
      cases notes' with
      | nil => cases h
      | cons note' rest' =>
          simp only [indexPieces, indexList, List.map_append, List.map_cons, hitems]

end Index

/-- **NOTES LEAVE THE MARKUP ALONE**:

    * the pages of any two notes that both show markdown, or both a message, have the same
      marks; what stands in the places of the texts, read off the one with the pieces of the
      other, comes to the texts of the one when the entities are undone;
    * so do the pages of any two lists of as many notes. -/
theorem texts_leave_markup :
    (∀ (note note' : NoteRef) (shown shown' : Shown), shown.isMessage = shown'.isMessage →
        marks (notePage note shown) = marks (notePage note' shown')
          ∧ (placeholders? (notePieces note' shown') (notePage note shown)).map (List.map unescape)
            = some (noteTexts note shown))
      ∧ ∀ notes notes' : List NoteRef, notes.length = notes'.length →
          marks (indexPage notes) = marks (indexPage notes')
            ∧ (placeholders? (indexPieces notes') (indexPage notes)).map (List.map unescape)
              = some (indexTexts notes) := by
  refine ⟨fun note note' shown shown' hkind => ?_, fun notes notes' hlength => ?_⟩
  · have houtline := outline_notePieces note note' hkind
    refine ⟨marks_eq_of_outline houtline, ?_⟩
    rw [← filterMap_notePieces]
    exact unescaped_placeholders (isFramed_notePieces note shown) houtline.symm
  · have houtline := outline_indexPieces hlength
    refine ⟨marks_eq_of_outline houtline, ?_⟩
    rw [← filterMap_indexPieces]
    exact unescaped_placeholders (isFramed_indexPieces notes) houtline.symm

/-- A note whose path and name hold marks and entities. -/
def hostile : NoteRef :=
  ⟨"x\" onclick='y'.md".toList, "</title><script>&lt;&amp;#34;".toList⟩

/-- A note whose path and name hold none. -/
def harmless : NoteRef :=
  ⟨"b.md".toList, ['b']⟩

/-- The hostile note has the page of the harmless one but for the texts, and so has the list
    of both. -/
theorem hostile_note_in_pages :
    (Shown.markdown "</pre>&amp;lt;".toList).isMessage = (Shown.markdown ['t']).isMessage
      ∧ marks (notePage hostile (.markdown "</pre>&amp;lt;".toList))
        = marks (notePage harmless (.markdown ['t']))
      ∧ (placeholders? (notePieces harmless (.markdown ['t']))
          (notePage hostile (.markdown "</pre>&amp;lt;".toList))).map (List.map unescape)
        = some [hostile.name, hostile.name, hostile.path, "</pre>&amp;lt;".toList]
      ∧ [hostile, harmless].length = [harmless, harmless].length
      ∧ marks (indexPage [hostile, harmless]) = marks (indexPage [harmless, harmless])
      ∧ (placeholders? (indexPieces [harmless, harmless])
          (indexPage [hostile, harmless])).map (List.map unescape)
        = some [hostile.path, hostile.name, hostile.path, "b.md".toList, ['b'], "b.md".toList] := by
  obtain ⟨hnotes, hindex⟩ := texts_leave_markup
  obtain ⟨hmarks, htexts⟩ := hnotes hostile harmless (.markdown "</pre>&amp;lt;".toList)
    (.markdown ['t']) rfl
  obtain ⟨hmarks', htexts'⟩ := hindex [hostile, harmless] [harmless, harmless] rfl
  exact ⟨rfl, hmarks, htexts, rfl, hmarks', htexts'⟩

end NoteDigest.Web
