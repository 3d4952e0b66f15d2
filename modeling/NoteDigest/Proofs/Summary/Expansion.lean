import NoteDigest.Proofs.Directive.Pieces
import NoteDigest.Proofs.Summary.Runs
import NoteDigest.Proofs.Summary.Staging

/-! # Expansion — block by block, and nothing else

    `Provider.expand` finds the blocks of a text by the numbers of their lines, summarizes
    their bodies, and splices the results into the lines.  The same text comes out piece by
    piece: a line yields itself, a block yields what its body alone yields, and no piece
    depends on another (`expand_eq_sequence`).

    So expansion is a homomorphism: a text that is put together from two, with no block
    open between them, expands to what the two expand to, and the notes tried for it are
    those tried for the one and then for the other (`expand_append_newline`).  And it
    touches nothing but blocks (`expand_piecewise`). -/

namespace NoteDigest

open Directive

variable {ε : Type}

/-! ## Splicing -/

section Splice

variable {number : Nat} {line opening closing text : Text} {lines body : List Text}
  {parts : List (Block × Text)}

/-- A line in front of all blocks stays. -/
theorem splice_cons (h : ∀ part ∈ parts, number < part.1.first ∧ part.1.first < part.1.last) :
    splice number (line :: lines) parts = line :: splice (number + 1) lines parts := by
  cases parts with
  | nil => rfl
  | cons part rest =>
      obtain ⟨block, text⟩ := part
      obtain ⟨hfirst, hlast⟩ := h (block, text) List.mem_cons_self
      have hfirst : number < block.first := hfirst
      have hlast : block.first < block.last := hlast
      have htake : block.first - number = (block.first - (number + 1)) + 1 := by omega
      have hdrop : block.last + 1 - number = (block.last + 1 - (number + 1)) + 1 := by omega
      rw [splice, splice, htake, hdrop, List.take_succ_cons, List.drop_succ_cons,
        List.cons_append]

/-- A block at the front gives way to its text. -/
theorem splice_block (source : Text) :
    splice number ((Piece.block opening body closing).source ++ lines)
        ((⟨source, number, number + 1 + body.length⟩, text) :: parts)
      = text :: splice (number + body.length + 2) lines parts := by
  have hdrop : number + 1 + body.length + 1 - number
      = (Piece.block opening body closing).source.length := by
    simp only [Piece.source, List.length_cons, List.length_append, List.length_nil]
    omega
  have hnext : number + 1 + body.length + 1 = number + body.length + 2 := by omega
  rw [splice, Nat.sub_self, hdrop, List.drop_left, hnext]
  rfl

end Splice

namespace Provider

variable (provider : Provider ε) (layout : Layout)

/-! ## Piece by piece -/

/-- What a piece of a note yields: a line itself, a block the summary of its body. -/
def yields : Piece → Run ε Text
  | .line row => Run.pure row
  | .block _ body _ => (provider.summary (Text.unlines body) layout).map Summary.replacement

/-- A block together with what it yields. -/
def part (block : Block) : Run ε (Block × Text) :=
  (provider.summary block.body layout).map fun summary => (block, summary.replacement)

theorem expand_eq_splice (text : Text) :
    provider.expand text layout
      = (Run.sequence ((blocks text).map (provider.part layout))).map fun parts =>
          Text.unlines (splice 0 (Text.lines text) parts) := by
  rw [expand]
  cases blocks text with
  | nil =>
      show Run.pure text = Run.pure (Text.unlines (Text.lines text))
      rw [Text.unlines_lines]
  | cons block rest => rfl

/-- Each part belongs to its block. -/
theorem fst_of_sequence {blocks : List Block} {parts : List (Block × Text)}
    (h : (Run.sequence (blocks.map (provider.part layout))).result = .ok parts) :
    parts.map Prod.fst = blocks := by
  have hparts := List.forall₂_map_left_iff.mp (Run.forall₂_of_sequence h)
  clear h
  induction hparts with
  | nil => rfl
  | @cons block part blocks parts hpart _ ih =>
      rw [Provider.part, Run.map] at hpart
      cases hsummary : (provider.summary block.body layout).result with
      | error cause => rw [hsummary] at hpart; cases hpart
      | ok summary =>
          rw [hsummary] at hpart
          rw [← Except.ok.inj hpart, List.map_cons, ih]

/-- **ONE PIECE AFTER THE OTHER**: to splice what the blocks yield into their lines is to
    ask each piece in turn. -/
theorem sequence_splice :
    ∀ (pieces : List Piece) (number : Nat),
      (Run.sequence ((blocksOf number pieces).map (provider.part layout))).map
          (splice number (pieces.flatMap Piece.source))
        = Run.sequence (pieces.map (provider.yields layout)) := by
  intro pieces
  induction pieces with
  | nil => intro number; rfl
  | cons piece rest ih =>
      intro number
      cases piece with
      | line row =>
          -- the blocks that follow start behind the line, so splicing lets it stand
          have hbehind : ∀ parts,
              (Run.sequence ((blocksOf (number + 1) rest).map (provider.part layout))).result
                = .ok parts →
              ∀ part ∈ parts, number < part.1.first ∧ part.1.first < part.1.last := by
            intro parts hparts part hpart
            have hblock : part.1 ∈ blocksOf (number + 1) rest := by
              rw [← provider.fst_of_sequence layout hparts]
              exact List.mem_map_of_mem hpart
            exact first_of_mem_blocksOf hblock
          calc (Run.sequence ((blocksOf (number + 1) rest).map (provider.part layout))).map
                (splice number (row :: rest.flatMap Piece.source))
              = (Run.sequence ((blocksOf (number + 1) rest).map (provider.part layout))).map
                  fun parts => row :: splice (number + 1) (rest.flatMap Piece.source) parts :=
                Run.map_congr fun parts hparts => splice_cons (hbehind parts hparts)
            _ = (Run.sequence (rest.map (provider.yields layout))).map (row :: ·) := by
                rw [← ih (number + 1), Run.map_map]
            _ = Run.sequence ((Piece.line row :: rest).map (provider.yields layout)) := by
                rw [List.map_cons, Run.sequence_cons, yields, Run.pure_andThen, Run.map_map]
      | block opening body closing =>
          have hpart : provider.part layout
                ⟨Text.unlines body, number, number + 1 + body.length⟩
              = (provider.yields layout (.block opening body closing)).map fun text =>
                  (⟨Text.unlines body, number, number + 1 + body.length⟩, text) := by
            rw [yields, Run.map_map]
            rfl
          rw [blocksOf, List.map_cons, Run.sequence_cons, Run.map_map, hpart, Run.andThen_map_left,
            Run.map_map, List.flatMap_cons, List.map_cons, Run.sequence_cons,
            ← ih (number + body.length + 2)]
          simp only [splice_block]
          rw [Run.andThen_map_right, Run.map_map]

/-- **EXPANSION** asks the pieces of a text one after the other. -/
theorem expand_eq_sequence (text : Text) :
    provider.expand text layout
      = (Run.sequence ((pieces text).map (provider.yields layout))).map Text.unlines := by
  rw [expand_eq_splice, ← blocksOf_pieces, ← flatMap_source_pieces, ← sequence_splice _ _ _ 0,
    Run.map_map]

theorem mem_probes_of_expand {text : Text} {ref : NoteRef}
    (h : ref ∈ (provider.expand text layout).probes) : ref ∈ provider.probes := by
  rw [expand_eq_sequence, Run.map] at h
  obtain ⟨run, hrun, hprobe⟩ := Run.mem_probes_sequence h
  obtain ⟨piece, -, rfl⟩ := List.mem_map.mp hrun
  cases piece with
  | line row => cases hprobe
  | block opening body closing => exact mem_probes_of_summary hprobe

/-! ## Two texts -/

/-- Where no block is open between two texts, they are expanded one after the other. -/
theorem expand_append_newline {before : Text} (h : leavesOpen before = false) (after : Text) :
    provider.expand (before ++ '\n' :: after) layout
      = ((provider.expand before layout).andThen (provider.expand after layout)).map fun p =>
          p.1 ++ '\n' :: p.2 := by
  rw [expand_eq_sequence, expand_eq_sequence, expand_eq_sequence, pieces_append h, List.map_append,
    Run.sequence_append, Run.andThen_map, Run.map_map, Run.map_map]
  -- each text has a piece at least, so there are rows on both sides of the newline
  refine Run.map_congr fun p hp => ?_
  obtain ⟨hbefore, hafter⟩ := Run.result_andThen_eq_ok hp
  refine Text.unlines_append (Run.ne_nil_of_sequence hbefore ?_) (Run.ne_nil_of_sequence hafter ?_)
  · simpa using pieces_ne_nil before
  · simpa using pieces_ne_nil after

/-! ## What stands where a block stood -/

/-- A summary that found nothing says so. -/
theorem message_of_empty {provider : Provider ε} {layout : Layout} {source : Text}
    {summary : Summary} (h : (provider.summary source layout).result = .ok summary)
    (hempty : summary.empty = true) : summary.message = some emptyMessage := by
  obtain rfl | ⟨notes, -, rfl⟩ := of_summary_result h
  · rfl
  · rw [Summary.ofFragments] at hempty ⊢
    split
    · rfl
    · rename_i hmarkdown
      rw [if_neg hmarkdown] at hempty
      cases hempty

/-- The row that a piece becomes: a line itself; for a block, what its body alone yields,
    the markdown without the newlines at its end or the message that there is none. -/
def row : Piece → Except ε Text
  | .line row => .ok row
  | .block _ body _ => do
      let summary ← (provider.summary (Text.unlines body) layout).result
      return if summary.empty then emptyMessage
        else Text.dropEndWhile (· == '\n') summary.markdown

theorem result_yields (piece : Piece) :
    (provider.yields layout piece).result = provider.row layout piece := by
  cases piece with
  | line row => rfl
  | block opening body closing =>
      rw [yields, row, Run.map]
      cases hsummary : (provider.summary (Text.unlines body) layout).result with
      | error cause => rfl
      | ok summary =>
          show Except.ok summary.replacement = Except.ok _
          rw [Summary.replacement]
          by_cases hempty : summary.empty = true
          · rw [if_pos hempty, if_pos hempty, message_of_empty hsummary hempty]
            rfl
          · rw [if_neg hempty, if_neg hempty]

theorem expand_result_eq_mapM (text : Text) :
    (provider.expand text layout).result
      = ((pieces text).mapM (provider.row layout)).map Text.unlines := by
  rw [expand_eq_sequence, Run.map, Run.result_sequence, List.mapM_map]
  simp only [Function.comp_def, result_yields]

/-- **EXPANSION TOUCHES NOTHING BUT BLOCKS**: two texts with no block open between them are
    expanded one after the other; and of every text, taken apart into the blocks found in
    it and its other lines, each piece becomes a row of its own, the other lines
    themselves. -/
theorem expand_piecewise (provider : Provider ε) (layout : Layout) :
    (∀ before after : Text, leavesOpen before = false →
        provider.expand (before ++ '\n' :: after) layout
          = ((provider.expand before layout).andThen (provider.expand after layout)).map
              fun p => p.1 ++ '\n' :: p.2)
      ∧ ∀ text : Text,
          (pieces text).flatMap Piece.source = Text.lines text
            ∧ blocksOf 0 (pieces text) = blocks text
            ∧ (provider.expand text layout).result
                = ((pieces text).mapM (provider.row layout)).map Text.unlines := by
  constructor
  · intro before after h
    exact provider.expand_append_newline layout h after
  · intro text
    exact ⟨flatMap_source_pieces text, blocksOf_pieces text,
      provider.expand_result_eq_mapM layout text⟩

/-- A provider of one note, of one line. -/
def single : Provider Empty where
  refs := .ok [⟨"n.md".toList, ['n']⟩]
  metadata := fun _ => .ok ⟨[Occurrence.on 0 "#t".toList], false⟩
  lines := fun _ => .ok ["x #t".toList]

/-- A text with a block between two lines. -/
def hostText : Text :=
  "a\n\x60\x60\x60add-summary\ntags: #t\n\x60\x60\x60\nb".toList

/-- A second block behind the text of the first is expanded for itself. -/
theorem single_expand_hostText :
    leavesOpen hostText = false
      ∧ (single.expand (hostText ++ '\n' :: hostText) ⟨false, false⟩).result
          = .ok "a\nx #t\nb\na\nx #t\nb".toList := by
  have hclosed : leavesOpen hostText = false := by decide
  refine ⟨hclosed, ?_⟩
  rw [(expand_piecewise single ⟨false, false⟩).1 hostText hostText hclosed]
  decide +kernel

end Provider
end NoteDigest
