import NoteDigest.Proofs.Text.Trim
import NoteDigest.Web.Page

/-! # Pages — what can be read off the page of a note

    A page is read without knowing how it was made: its title is what stands between the
    first `<title>` and the next `</title>`, and the like (`Text.between?`).  The texts that
    are filled in hold no `<`, `>` or `"` (`notMem_escape`), so none of them hides a mark or
    feigns one, whatever the name, the path and the text of the note are.  What is read is
    what was filled in (`isPageOf_notePage`). -/

namespace NoteDigest

/-! ## Between two marks -/

namespace Text

/-- What stands behind the first occurrence of a text. -/
def behind? (lead : Text) : Text → Option Text
  | [] => after? lead []
  | c :: rest =>
      match after? lead (c :: rest) with
      | some found => some found
      | none => behind? lead rest

/-- What stands in front of the first occurrence of a text. -/
def upTo? (stop : Text) : Text → Option Text
  | [] => (after? stop []).map fun _ => []
  | c :: rest =>
      match after? stop (c :: rest) with
      | some _ => some []
      | none => (upTo? stop rest).map (c :: ·)

/-- What stands between the first occurrence of a text and the next one of another. -/
def between? (opening closing text : Text) : Option Text :=
  (behind? opening text).bind (upTo? closing)

variable {opening text : Text} {l s : Char}

theorem after?_append (lead rest : Text) : after? lead (lead ++ rest) = some rest :=
  after?_eq_some_iff.mpr rfl

theorem after?_cons_of_ne {c : Char} (hne : l ≠ c) (lead rest : Text) :
    after? (l :: lead) (c :: rest) = none :=
  if_neg hne

/-- A text without the first character of a mark is all that stands in front of the mark. -/
theorem upTo?_append (h : s ∉ text) (stop rest : Text) :
    upTo? (s :: stop) (text ++ (s :: stop ++ rest)) = some text := by
  induction text with
  | nil => rw [List.nil_append, List.cons_append, upTo?, ← List.cons_append, after?_append]
  | cons c text ih =>
      obtain ⟨hc, htext⟩ := not_or.mp (List.mem_cons.not.mp h)
      rw [List.cons_append, upTo?, after?_cons_of_ne hc, ih htext]
      rfl

/-! ## Texts that a search passes over -/

/-- The search for a mark passes over a text, whatever follows. -/
def Passes (mark text : Text) : Prop :=
  ∀ rest, behind? mark (text ++ rest) = behind? mark rest

/-- A text without the first character of a mark is passed over. -/
theorem passes_of_notMem (h : l ∉ text) (mark : Text) : Passes (l :: mark) text := by
  intro rest
  induction text with
  | nil => rfl
  | cons c text ih =>
      obtain ⟨hc, htext⟩ := not_or.mp (List.mem_cons.not.mp h)
      rw [List.cons_append, behind?, after?_cons_of_ne hc]
      exact ih htext

/-- Each `a` in a text is followed there by something other than `b`. -/
def avoids (a b : Char) : Text → Bool
  | [] => true
  | c :: rest => (c != a || rest.head?.any (· != b)) && avoids a b rest

/-- A text in which the second character of a mark never follows the first is passed over. -/
theorem passes_of_avoids {a b : Char} (h : avoids a b text = true) (mark : Text) :
    Passes (a :: b :: mark) text := by
  intro rest
  induction text with
  | nil => rfl
  | cons c text ih =>
      rw [avoids, Bool.and_eq_true] at h
      obtain ⟨hfirst, htext⟩ := h
      have hnone : after? (a :: b :: mark) (c :: (text ++ rest)) = none := by
        by_cases hc : a = c
        · cases text with
          | nil => simp [hc] at hfirst
          | cons d others =>
              have hd : b ≠ d := by
                intro heq
                simp [hc, heq] at hfirst
              rw [after?, if_pos hc]
              exact after?_cons_of_ne hd mark _
        · exact after?_cons_of_ne hc _ _
      rw [List.cons_append, behind?, hnone]
      exact ih htext

/-- Nothing is between two marks in a text that the search for the first one passes over. -/
theorem between?_eq_none (h : Passes (l :: opening) text) (closing : Text) :
    between? (l :: opening) closing text = none := by
  have hnone := h []
  rw [List.append_nil] at hnone
  rw [between?, hnone]
  rfl

end Text

namespace Web

/-! ## Texts that are filled in -/

/-- **NO MARKUP** stands in a text that is filled in. -/
theorem notMem_escape (text : Text) : '<' ∉ escape text ∧ '>' ∉ escape text ∧ '"' ∉ escape text := by
  have hchar : ∀ c : Char, ∀ x ∈ escapeChar c, x ≠ '<' ∧ x ≠ '>' ∧ x ≠ '"' := by
    intro c
    unfold escapeChar
    split <;> simp_all
  have hnone : ∀ x ∈ escape text, x ≠ '<' ∧ x ≠ '>' ∧ x ≠ '"' := by
    intro x hx
    obtain ⟨c, -, hc⟩ := List.mem_flatMap.mp hx
    exact hchar c x hc
  exact ⟨fun h => (hnone _ h).1 rfl, fun h => (hnone _ h).2.1 rfl, fun h => (hnone _ h).2.2 rfl⟩

theorem passes_escape (mark text : Text) : Text.Passes ('<' :: mark) (escape text) :=
  Text.passes_of_notMem (notMem_escape text).1 mark

/-! ## Reading the page of a note -/

/-- The title of a page. -/
def title? (page : Text) : Option Text :=
  Text.between? "<title>".toList "</title>".toList page

/-- The path that a page says it is for. -/
def basePath? (page : Text) : Option Text :=
  Text.between? "<div class=\"summary\" data-base-path=\"".toList ['"'] page

/-- The markdown that a page shows. -/
def markdown? (page : Text) : Option Text :=
  Text.between? "<pre style=\"white-space:pre-wrap;\">".toList "</pre>".toList page

/-- The message that a page shows. -/
def message? (page : Text) : Option Text :=
  Text.between? "<span style=\"color: var(--text-error, #c00) !important;\">".toList
    "</span>".toList page

/-- **THE PAGE OF A NOTE** has its name as the title, its path, and its markdown; or the message
    that it is empty, if nothing but blanks is in its markdown. -/
structure IsPageOf (page : Text) (note : NoteRef) (markdown : Text) : Prop where
  title : title? page = some (escape note.name)
  basePath : basePath? page = some (escape note.path)
  shown : (∃ c ∈ markdown, Text.isBlank c = false) →
    markdown? page = some (escape markdown) ∧ message? page = none
  empty : (∀ c ∈ markdown, Text.isBlank c = true) →
    markdown? page = none ∧ message? page = some emptyNoteMessage

/-- In the markup of a piece `c` never follows a `<`. -/
def Piece.avoids (c : Char) : Piece → Bool
  | .markup source => Text.avoids '<' c source.toList
  | .filled _ => true

variable {mark stop : Text} {c s : Char} {pieces front : List Piece}

/-- Pieces are passed over in the search for a tag, if their markup has none that begins with
    the same letter. -/
theorem passes_renderPage (h : pieces.all (Piece.avoids c) = true) (mark : Text) :
    Text.Passes ('<' :: c :: mark) (renderPage pieces) := by
  intro rest
  induction pieces with
  | nil => rfl
  | cons piece others ih =>
      rw [List.all_cons, Bool.and_eq_true] at h
      rw [renderPage, List.flatMap_cons, List.append_assoc]
      cases piece with
      | markup source => exact (Text.passes_of_avoids h.1 mark _).trans (ih h.2)
      | filled text => exact (passes_escape (c :: mark) text _).trans (ih h.2)

/-- **A TEXT THAT IS FILLED IN** is read off a page between the marks around it. -/
theorem between?_renderPage (front : List Piece) {before behind : String} {text after : Text}
    {back : List Piece} (hfront : front.all (Piece.avoids c) = true)
    (hmark : ∀ rest, Text.behind? ('<' :: c :: mark) (before.toList ++ rest) = some rest)
    (hstop : behind.toList = s :: stop ++ after) (htext : s ∉ escape text) :
    Text.between? ('<' :: c :: mark) (s :: stop)
        (renderPage (front ++ .markup before :: .filled text :: .markup behind :: back))
      = some (escape text) := by
  have hpage : renderPage (front ++ .markup before :: .filled text :: .markup behind :: back)
      = renderPage front ++ (before.toList
        ++ (escape text ++ (s :: stop ++ (after ++ renderPage back)))) := by
    simp only [renderPage, List.flatMap_append, List.flatMap_cons, Piece.render, hstop,
      List.append_assoc]
  rw [hpage, Text.between?, passes_renderPage hfront, hmark, Option.bind_some,
    Text.upTo?_append htext]

/-! ## What the page of a note bears -/

section Pages

variable (note : NoteRef) (text : Text) (shown : Shown)

theorem title?_notePage : title? (notePage note shown) = some (escape note.name) :=
  between?_renderPage [] rfl (fun _ => rfl) rfl (notMem_escape note.name).1

theorem basePath?_notePage : basePath? (notePage note shown) = some (escape note.path) :=
  between?_renderPage [_, _, _, _] rfl (fun _ => rfl) rfl (notMem_escape note.path).2.2

theorem markdown?_notePage : markdown? (notePage note (.markdown text)) = some (escape text) :=
  between?_renderPage [_, _, _, _, _, _, _] rfl (fun _ => rfl) rfl (notMem_escape text).1

theorem message?_notePage : message? (notePage note (.message text)) = some (escape text) :=
  between?_renderPage [_, _, _, _, _, _, _] rfl (fun _ => rfl) rfl (notMem_escape text).1

/-- A page that shows markdown shows no message. -/
theorem message?_of_markdown : message? (notePage note (.markdown text)) = none :=
  Text.between?_eq_none (passes_renderPage rfl _) _

/-- A page that shows a message shows no markdown. -/
theorem markdown?_of_message : markdown? (notePage note (.message text)) = none :=
  Text.between?_eq_none (passes_renderPage rfl _) _

end Pages

theorem isPageOf_notePage (note : NoteRef) (markdown : Text) :
    IsPageOf (notePage note (.ofText markdown)) note markdown where
  title := title?_notePage note _
  basePath := basePath?_notePage note _
  shown := by
    rintro ⟨c, hmem, hc⟩
    have htext : Text.isBlankText markdown = false :=
      List.all_eq_false.mpr ⟨c, hmem, by simp [hc]⟩
    rw [Shown.ofText, htext]
    exact ⟨markdown?_notePage note markdown, message?_of_markdown note markdown⟩
  empty := by
    intro hblank
    have htext : Text.isBlankText markdown = true := List.all_eq_true.mpr hblank
    rw [Shown.ofText, htext]
    exact ⟨markdown?_of_message note _, message?_notePage note _⟩

end Web
end NoteDigest
