import NoteDigest.Proofs.Directive.Hosting
import NoteDigest.Proofs.Fragment.Rows
import NoteDigest.Proofs.Summary.Expansion

/-! # Settling — an expanded note has no blocks left

    The summaries of tidy notes hold no fences, so what stands where a block stood opens no
    new one.  A fence that was left open in the note stays, and still nothing closes it:
    behind it there were no blocks, only lines that close none (`pairwise_settles`).  So no
    block is left, and expanding once more changes nothing (`expand_settles`). -/

namespace NoteDigest

open Directive

/-! ## Texts that open nothing -/

/-- No line of the text opens a block. -/
def Inert (text : Text) : Prop :=
  ∀ line ∈ Text.lines text, opens line = false

theorem Unfenced.inert {text : Text} (h : Unfenced text) : Inert text := by
  intro line hline
  refine Bool.eq_false_iff.mpr fun hopens => ?_
  have hfence := h.ofLine?_eq_none line hline
  rw [ofLine?_of_opens hopens] at hfence
  cases hfence

theorem inert_dropEnd {text : Text} (h : Inert text) :
    Inert (Text.dropEndWhile (· == '\n') text) :=
  fun line hline => h line (Text.mem_lines_of_mem_lines_dropEnd hline)

/-- The texts of unfenced fragments, in any order. -/
theorem unfenced_aggregate {fragments : List Fragment}
    (h : ∀ fragment ∈ fragments, Unfenced fragment.text) :
    Unfenced (Fragment.aggregate fragments) :=
  Unfenced.flatMap fun fragment hmem => h fragment (List.mem_mergeSort.mp hmem)

theorem inert_replacement_nothing : Inert Summary.nothing.replacement := by
  have hlines : Text.lines emptyMessage = [emptyMessage] := by decide
  show ∀ line ∈ Text.lines emptyMessage, opens line = false
  rw [hlines]
  exact List.forall_mem_singleton.mpr (by decide)

theorem inert_replacement_ofFragments {fragments : List Fragment}
    (h : ∀ fragment ∈ fragments, Unfenced fragment.text) (notes : Nat) :
    Inert (Summary.ofFragments fragments notes).replacement := by
  rw [Summary.ofFragments]
  split
  · exact inert_replacement_nothing
  · exact inert_dropEnd (unfenced_aggregate h).inert

/-! ## The rows of an expanded note -/

/-- What a piece leaves in an expanded note: a line itself, a block a text that opens
    nothing. -/
def Directive.Piece.Leaves : Piece → Text → Prop
  | .line row, text => text = row
  | .block _ _ _, text => Inert text

theorem Inert.quiet {text : Text} (h : Inert text) {line : Text} (hline : line ∈ Text.lines text)
    (later : Text) : Quiet line later := by
  intro hopens
  rw [h line hline] at hopens
  cases hopens

/-- Behind a fence that was left open there are only lines, and none of them closes it. -/
theorem closes_of_settles {pieces : List Piece} {rows : List Text} {fence later : Text}
    (h : List.Forall₂ Piece.Leaves pieces rows)
    (hline : ∀ row, Piece.line row ∈ pieces → '\n' ∉ row)
    (hsettles : ∀ piece ∈ pieces, (Piece.line fence).Settles piece) (hopens : opens fence = true)
    (hlater : later ∈ rows.flatMap Text.lines) : closes later = false := by
  obtain ⟨text, htext, hlater⟩ := List.mem_flatMap.mp hlater
  obtain ⟨i, hi, rfl⟩ := List.getElem_of_mem htext
  -- the row was left by a piece, which is a line
  have hi' : i < pieces.length := h.length_eq ▸ hi
  have hleaves : pieces[i].Leaves rows[i] := h.get hi' hi
  obtain ⟨other, hother, hcloses⟩ := hsettles pieces[i] (List.getElem_mem hi') fence rfl hopens
  rw [hother] at hleaves
  have hrow : rows[i] = other := hleaves
  have hmem : Piece.line other ∈ pieces := hother ▸ List.getElem_mem hi'
  rw [hrow, Text.lines_of_newline_notMem (hline other hmem)] at hlater
  rw [List.mem_singleton.mp hlater]
  exact hcloses

/-- **NO FENCE IS CLOSED** that was left open: when nothing behind an opening fence among
    the pieces closes a block, nothing among the rows does. -/
theorem pairwise_quiet_rows {pieces : List Piece} {rows : List Text}
    (h : List.Forall₂ Piece.Leaves pieces rows) (hsettles : pieces.Pairwise Piece.Settles)
    (hline : ∀ row, Piece.line row ∈ pieces → '\n' ∉ row) :
    (rows.flatMap Text.lines).Pairwise Quiet := by
  induction h with
  | nil => exact List.Pairwise.nil
  | @cons piece text pieces rows hpiece hrest ih =>
      obtain ⟨hbehind, hsettles'⟩ := List.pairwise_cons.mp hsettles
      have hline' : ∀ row, Piece.line row ∈ pieces → '\n' ∉ row :=
        fun row hrow => hline row (List.mem_cons_of_mem _ hrow)
      rw [List.flatMap_cons]
      cases piece with
      | line row =>
          obtain rfl : text = row := hpiece
          rw [Text.lines_of_newline_notMem (hline text List.mem_cons_self)]
          refine List.pairwise_cons.mpr ⟨fun later hlater hopens => ?_, ih hsettles' hline'⟩
          exact closes_of_settles hrest hline' hbehind hopens hlater
      | block opening body closing =>
          have hinert : Inert text := hpiece
          refine List.pairwise_append.mpr ⟨?_, ih hsettles' hline', ?_⟩
          · exact List.pairwise_of_forall_mem_list fun a ha b _ => hinert.quiet ha b
          · exact fun a ha b _ => hinert.quiet ha b

theorem newline_notMem_of_mem_pieces {text row : Text} (h : Piece.line row ∈ pieces text) :
    '\n' ∉ row := by
  have hrow : row ∈ Text.lines text := by
    rw [← flatMap_source_pieces]
    exact List.mem_flatMap.mpr ⟨Piece.line row, h, List.mem_singleton.mpr rfl⟩
  exact Text.newline_notMem_of_mem_lines hrow

namespace Provider

variable {ε : Type} {provider : Provider ε} {layout : Layout} {text : Text}

theorem leaves_of_yields (htidy : ∀ note, provider.Delivers note → note.Tidy) {piece : Piece}
    {row : Text} (h : (provider.yields layout piece).result = .ok row) : piece.Leaves row := by
  cases piece with
  | line line => exact (Except.ok.inj h).symm
  | block opening body closing =>
      rw [yields, Run.map] at h
      cases hsummary : (provider.summary (Text.unlines body) layout).result with
      | error cause => rw [hsummary] at h; cases h
      | ok summary =>
          rw [hsummary] at h
          obtain rfl : summary.replacement = row := Except.ok.inj h
          obtain rfl | ⟨notes, hnotes, rfl⟩ := of_summary_result hsummary
          · exact inert_replacement_nothing
          · refine inert_replacement_ofFragments (fun fragment hfragment => ?_) _
            exact unfenced_of_mem_fragments (fun note hnote => htidy note (hnotes note hnote))
              hfragment

/-- **NO BLOCK IS LEFT** in an expanded note. -/
theorem blocks_expanded (htidy : ∀ note, provider.Delivers note → note.Tidy) {expanded : Text}
    (h : (provider.expand text layout).result = .ok expanded) : blocks expanded = [] := by
  rw [expand_eq_sequence, Run.map] at h
  cases hrows : (Run.sequence ((pieces text).map (provider.yields layout))).result with
  | error cause => rw [hrows] at h; cases h
  | ok rows =>
      rw [hrows] at h
      obtain rfl : Text.unlines rows = expanded := Except.ok.inj h
      have hleaves : List.Forall₂ Piece.Leaves (pieces text) rows :=
        (List.forall₂_map_left_iff.mp (Run.forall₂_of_sequence hrows)).imp
          fun _ _ => leaves_of_yields htidy
      have hne : rows ≠ [] :=
        Run.ne_nil_of_sequence hrows (by simpa using pieces_ne_nil text)
      refine blocks_eq_nil ?_
      rw [Text.lines_unlines hne]
      exact pairwise_quiet_rows hleaves (pairwise_settles text)
        fun row => newline_notMem_of_mem_pieces

theorem expand_of_blocks_eq_nil (h : blocks text = []) :
    provider.expand text layout = Run.pure text := by
  rw [expand, h]

/-- A provider that serves its notes expands every text. -/
theorem exists_expanded {refs : List NoteRef} (h : provider.Serves refs) (text : Text)
    (layout : Layout) : ∃ expanded, (provider.expand text layout).result = .ok expanded := by
  have hyields : ∀ run ∈ (pieces text).map (provider.yields layout),
      ∃ row, run.result = .ok row := by
    intro run hrun
    obtain ⟨piece, -, rfl⟩ := List.mem_map.mp hrun
    cases piece with
    | line row => exact ⟨row, rfl⟩
    | block opening body closing =>
        exact ⟨_, by rw [yields, Run.map, summary_result_eq h]; rfl⟩
  obtain ⟨rows, hrows⟩ := Run.exists_of_forall_exists hyields
  exact ⟨Text.unlines rows, by rw [expand_eq_sequence, Run.map, hrows]; rfl⟩

/-- **EXPANDING SETTLES** a note, when the notes that a provider delivers are tidy: what it
    expands to holds no block, and expanding that once more, for which no note is tried,
    changes nothing.  Expanding fails only when listing the notes or loading one does. -/
theorem expand_settles (htidy : ∀ note, provider.Delivers note → note.Tidy) (text : Text)
    (layout : Layout) :
    (∀ expanded, (provider.expand text layout).result = .ok expanded →
        blocks expanded = [] ∧ provider.expand expanded layout = Run.pure expanded)
      ∧ (do (provider.expand (← (provider.expand text layout).result) layout).result)
          = (provider.expand text layout).result
      ∧ ∀ refs, provider.Serves refs →
          ∃ expanded, (provider.expand text layout).result = .ok expanded := by
  have hsettled : ∀ expanded, (provider.expand text layout).result = .ok expanded →
      blocks expanded = [] ∧ provider.expand expanded layout = Run.pure expanded :=
    fun expanded h => ⟨blocks_expanded htidy h, expand_of_blocks_eq_nil (blocks_expanded htidy h)⟩
  refine ⟨hsettled, ?_, fun refs h => exists_expanded h text layout⟩
  cases hexpanded : (provider.expand text layout).result with
  | error cause => rfl
  | ok expanded =>
      show (provider.expand expanded layout).result = .ok expanded
      rw [(hsettled expanded hexpanded).2]
      rfl

theorem single_tidy : ∀ note, single.Delivers note → note.Tidy := by
  rintro note ⟨refs, hrefs, hmem, hnote⟩
  obtain rfl := Except.ok.inj hrefs
  have href : note.ref = ⟨"n.md".toList, ['n']⟩ := List.mem_singleton.mp hmem
  rw [href] at hnote
  rw [← Option.some.inj hnote]
  exact ⟨by decide, by decide, by decide, by decide⟩

/-- A block and behind it a fence that opens none. -/
def openText : Text :=
  "\x60\x60\x60add-summary\ntags: #t\n\x60\x60\x60\n\x60\x60\x60add-summary\nb".toList

/-- What the text expands to, with the open fence still in it. -/
def settledText : Text :=
  "> [!n]\n> x #t\n> \n> Source: **[[n.md|n]]**\n> \n\x60\x60\x60add-summary\nb".toList

/-- Of the two opening fences one is left, and it still opens nothing. -/
theorem single_expand_openText :
    (∀ note, single.Delivers note → note.Tidy)
      ∧ (single.expand openText ⟨true, true⟩).result = .ok settledText
      ∧ blocks settledText = []
      ∧ single.expand settledText ⟨true, true⟩ = Run.pure settledText := by
  have hexpanded : (single.expand openText ⟨true, true⟩).result = .ok settledText := by
    decide +kernel
  exact ⟨single_tidy, hexpanded,
    (expand_settles single_tidy openText ⟨true, true⟩).1 settledText hexpanded⟩

end Provider
end NoteDigest
