import Mathlib.Data.List.Basic
import NoteDigest.Directive.Block
import NoteDigest.Proofs.Text.Lines

/-! # Pieces — a note taken apart into its blocks and its other lines

    `blocks` tells where the blocks of a text stand, by the numbers of their lines.  Here
    the text is taken apart without numbers: `pieces` gives its blocks and all other lines,
    one by one, from top to bottom.

    * No line is lost: the pieces, put together again, are the lines
      (`flatMap_source_pieces`).
    * The blocks among the pieces are those that `blocks` finds (`blocksOf_pieces`).
    * Texts between which no block is open are taken apart one after the other
      (`pieces_append`), and so are their blocks (`blocks_append`).
    * What follows a fence that opens no block closes none (`pairwise_settles`). -/

namespace NoteDigest.Directive

/-- A part of a note: a line that belongs to no block, or a block with its two fences. -/
inductive Piece
  | line (line : Text)
  | block (opening : Text) (body : List Text) (closing : Text)
  deriving DecidableEq

/-- The lines of a piece. -/
def Piece.source : Piece → List Text
  | .line row => [row]
  | .block opening body closing => opening :: (body ++ [closing])

/-- The pieces of some lines.  While a block is open, `within` holds its opening fence and
    the lines of its body so far; if it is never closed, they are lines like others. -/
def piecesFrom : (within : Option (Text × List Text)) → List Text → List Piece
  | none, [] => []
  | some (opening, body), [] => (opening :: body).map .line
  | none, line :: rest =>
      if opens line then piecesFrom (some (line, [])) rest
      else .line line :: piecesFrom none rest
  | some (opening, body), line :: rest =>
      if closes line then .block opening body line :: piecesFrom none rest
      else piecesFrom (some (opening, body ++ [line])) rest

/-- The pieces of a text, from top to bottom. -/
def pieces (text : Text) : List Piece :=
  piecesFrom none (Text.lines text)

/-- The blocks among some pieces, the first of which starts at line `number`. -/
def blocksOf : (number : Nat) → List Piece → List Block
  | _, [] => []
  | number, .line _ :: rest => blocksOf (number + 1) rest
  | number, .block _ body _ :: rest =>
      ⟨Text.unlines body, number, number + 1 + body.length⟩
        :: blocksOf (number + body.length + 2) rest

/-! ## No line is lost -/

/-- The lines that the scanner holds back. -/
def held : Option (Text × List Text) → List Text
  | none => []
  | some (opening, body) => opening :: body

theorem flatMap_source_map_line (lines : List Text) :
    (lines.map Piece.line).flatMap Piece.source = lines := by
  rw [List.flatMap_map]
  exact List.flatMap_singleton' lines

theorem flatMap_source_piecesFrom :
    ∀ (lines : List Text) (within : Option (Text × List Text)),
      (piecesFrom within lines).flatMap Piece.source = held within ++ lines := by
  intro lines
  induction lines with
  | nil =>
      intro within
      cases within with
      | none => rfl
      | some state =>
          obtain ⟨opening, body⟩ := state
          rw [piecesFrom, flatMap_source_map_line, List.append_nil]
          rfl
  | cons line rest ih =>
      intro within
      cases within with
      | none =>
          rw [piecesFrom]
          split
          · rw [ih]
            rfl
          · rw [List.flatMap_cons, ih]
            rfl
      | some state =>
          -- the line closes the block, or is held back with the others
          obtain ⟨opening, body⟩ := state
          rw [piecesFrom]
          split
          · rw [List.flatMap_cons, ih]
            simp [Piece.source, held]
          · rw [ih]
            simp [held]

/-- **NO LINE IS LOST**: the pieces of a text hold its lines, in order. -/
theorem flatMap_source_pieces (text : Text) :
    (pieces text).flatMap Piece.source = Text.lines text :=
  flatMap_source_piecesFrom (Text.lines text) none

theorem pieces_ne_nil (text : Text) : pieces text ≠ [] := by
  intro hnil
  have hlines := flatMap_source_pieces text
  rw [hnil] at hlines
  exact Text.lines_ne_nil text hlines.symm

/-! ## The blocks are those found -/

theorem blocksOf_map_line (number : Nat) (lines : List Text) :
    blocksOf number (lines.map Piece.line) = [] := by
  induction lines generalizing number with
  | nil => rfl
  | cons line rest ih => exact ih (number + 1)

/-- **BOTH SCANNERS** find the same blocks, whatever block is open. -/
theorem blocksOf_piecesFrom :
    ∀ (lines : List Text) (number : Nat),
      blocksOf number (piecesFrom none lines) = blocksFrom number none lines
        ∧ ∀ opening body, blocksOf number (piecesFrom (some (opening, body)) lines)
            = blocksFrom (number + 1 + body.length) (some (number, body)) lines := by
  intro lines
  induction lines with
  | nil =>
      intro number
      refine ⟨rfl, fun opening body => ?_⟩
      rw [piecesFrom, blocksOf_map_line, blocksFrom]
  | cons line rest ih =>
      intro number
      constructor
      · rw [piecesFrom, blocksFrom]
        split
        · exact (ih number).2 line []
        · exact (ih (number + 1)).1
      · intro opening body
        rw [piecesFrom, blocksFrom]
        split
        · rw [blocksOf, (ih _).1]
          congr 2
          omega
        · rw [(ih number).2, List.length_append]
          rfl

theorem blocksOf_pieces (text : Text) : blocksOf 0 (pieces text) = blocks text :=
  (blocksOf_piecesFrom (Text.lines text) 0).1

/-- The blocks of some pieces stand behind the line that these start at. -/
theorem first_of_mem_blocksOf {b : Block} :
    ∀ {pieces : List Piece} {number : Nat}, b ∈ blocksOf number pieces →
      number ≤ b.first ∧ b.first < b.last := by
  intro pieces
  induction pieces with
  | nil => intro number h; cases h
  | cons piece rest ih =>
      intro number h
      cases piece with
      | line line =>
          obtain ⟨hfirst, hlast⟩ := ih h
          exact ⟨by omega, hlast⟩
      | block opening body closing =>
          rcases List.mem_cons.mp h with rfl | h
          · exact ⟨Nat.le_refl _, by show number < number + 1 + body.length; omega⟩
          · obtain ⟨hfirst, hlast⟩ := ih h
            exact ⟨by omega, hlast⟩

/-- A block, a number of lines further down. -/
def Block.down (count : Nat) (b : Block) : Block :=
  ⟨b.body, b.first + count, b.last + count⟩

theorem Block.down_down (count count' : Nat) (b : Block) :
    (b.down count).down count' = b.down (count + count') := by
  simp only [Block.down, Nat.add_assoc]

/-- Pieces that start further down have their blocks further down. -/
theorem blocksOf_add (count : Nat) :
    ∀ (pieces : List Piece) (number : Nat),
      blocksOf (number + count) pieces = (blocksOf number pieces).map (Block.down count) := by
  intro pieces
  induction pieces with
  | nil => intro number; rfl
  | cons piece rest ih =>
      intro number
      cases piece with
      | line row =>
          have hnext : number + count + 1 = number + 1 + count := by omega
          rw [blocksOf, blocksOf, hnext, ih]
      | block opening body closing =>
          have hlast : number + count + 1 + body.length = number + 1 + body.length + count := by
            omega
          have hnext : number + count + body.length + 2 = number + body.length + 2 + count := by
            omega
          rw [blocksOf, blocksOf, List.map_cons, hlast, hnext, ih]
          rfl

/-- The blocks of pieces put together are those of the first ones, then those of the others,
    below the lines of the first. -/
theorem blocksOf_append (after : List Piece) :
    ∀ (before : List Piece) (number : Nat),
      blocksOf number (before ++ after)
        = blocksOf number before
          ++ blocksOf (number + (before.flatMap Piece.source).length) after := by
  intro before
  induction before with
  | nil => intro number; rfl
  | cons piece rest ih =>
      intro number
      cases piece with
      | line row =>
          rw [List.cons_append, blocksOf, blocksOf, ih]
          congr 2
          simp only [List.flatMap_cons, Piece.source, List.length_append, List.length_cons,
            List.length_nil]
          omega
      | block opening body closing =>
          rw [List.cons_append, blocksOf, blocksOf, ih, List.cons_append]
          congr 3
          simp only [List.flatMap_cons, Piece.source, List.length_append, List.length_cons,
            List.length_nil]
          omega

/-! ## Texts one after the other -/

/-- A block is open behind a line. -/
def openAfter (within : Bool) (line : Text) : Bool :=
  if within then !closes line else opens line

/-- The text ends inside a block that is never closed. -/
def leavesOpen (text : Text) : Bool :=
  (Text.lines text).foldl openAfter false

theorem piecesFrom_append (after : List Text) :
    ∀ (before : List Text) (within : Option (Text × List Text)),
      before.foldl openAfter within.isSome = false →
        piecesFrom within (before ++ after) = piecesFrom within before ++ piecesFrom none after := by
  intro before
  induction before with
  | nil =>
      intro within h
      -- nothing is held back at the end, or a block would be open
      obtain rfl : within = none := Option.not_isSome_iff_eq_none.mp (by simpa using h)
      rfl
  | cons line rest ih =>
      intro within h
      cases within with
      | none =>
          have hrest : rest.foldl openAfter (opens line) = false := h
          rw [List.cons_append, piecesFrom, piecesFrom]
          by_cases hopens : opens line = true
          · rw [hopens] at hrest
            rw [if_pos hopens, if_pos hopens]
            exact ih (some (line, [])) hrest
          · rw [Bool.eq_false_iff.mpr hopens] at hrest
            rw [if_neg hopens, if_neg hopens, ih none hrest, List.cons_append]
      | some state =>
          obtain ⟨opening, body⟩ := state
          have hrest : rest.foldl openAfter (!closes line) = false := h
          rw [List.cons_append, piecesFrom, piecesFrom]
          by_cases hcloses : closes line = true
          · rw [hcloses] at hrest
            rw [if_pos hcloses, if_pos hcloses, ih none hrest, List.cons_append]
          · rw [Bool.eq_false_iff.mpr hcloses] at hrest
            rw [if_neg hcloses, if_neg hcloses]
            exact ih (some (opening, body ++ [line])) hrest

/-- **ONE AFTER THE OTHER**: where no block is open between two texts, the pieces of both
    together are those of the one and then those of the other. -/
theorem pieces_append {before : Text} (h : leavesOpen before = false) (after : Text) :
    pieces (before ++ '\n' :: after) = pieces before ++ pieces after := by
  rw [pieces, Text.lines_append]
  exact piecesFrom_append (Text.lines after) (Text.lines before) none h

/-- The blocks of both are those of the one, then those of the other below its lines. -/
theorem blocks_append {before : Text} (h : leavesOpen before = false) (after : Text) :
    blocks (before ++ '\n' :: after)
      = blocks before ++ (blocks after).map (Block.down (before.count '\n' + 1)) := by
  rw [← blocksOf_pieces, pieces_append h, blocksOf_append, blocksOf_pieces,
    flatMap_source_pieces, Text.length_lines, blocksOf_add, blocksOf_pieces]

/-- An open block is closed by the first line that closes it. -/
theorem piecesFrom_within {opening closing : Text} (hcloses : closes closing = true)
    (after : List Text) :
    ∀ {body : List Text} (read : List Text), (∀ line ∈ body, closes line = false) →
      piecesFrom (some (opening, read)) (body ++ closing :: after)
        = .block opening (read ++ body) closing :: piecesFrom none after := by
  intro body
  induction body with
  | nil =>
      intro read _
      rw [List.nil_append, List.append_nil, piecesFrom, if_pos hcloses]
  | cons line rest ih =>
      intro read h
      obtain ⟨hline, hrest⟩ := List.forall_mem_cons.mp h
      rw [List.cons_append, piecesFrom, if_neg (Bool.eq_false_iff.mp hline),
        ih (read ++ [line]) hrest, List.append_assoc, List.singleton_append]

/-- **A BLOCK IN FRONT** of some lines is a piece of its own. -/
theorem piecesFrom_block {opening closing : Text} {body : List Text}
    (hopens : opens opening = true) (hcloses : closes closing = true)
    (hbody : ∀ line ∈ body, closes line = false) (after : List Text) :
    piecesFrom none (opening :: (body ++ closing :: after))
      = .block opening body closing :: piecesFrom none after := by
  rw [piecesFrom, if_pos hopens]
  exact piecesFrom_within hcloses after [] hbody

/-! ## Fences that open no block -/

/-- Behind a line that opens nothing, though it is an opening fence, come lines only, and
    none of them closes a block. -/
def Piece.Settles (piece later : Piece) : Prop :=
  ∀ row, piece = .line row → opens row = true → ∃ other, later = .line other ∧ closes other = false

theorem Piece.settles_of_not_opens {row : Text} (h : ¬ opens row = true) (later : Piece) :
    (Piece.line row).Settles later := by
  rintro _ ⟨⟩ hopens
  exact absurd hopens h

theorem pairwise_settles_map_line {lines : List Text}
    (h : ∀ line ∈ lines.tail, closes line = false) :
    (lines.map Piece.line).Pairwise Piece.Settles := by
  rw [List.pairwise_map]
  induction lines with
  | nil => exact List.Pairwise.nil
  | cons line rest ih =>
      refine List.pairwise_cons.mpr ⟨?_, ih fun later hlater => h later (List.mem_of_mem_tail hlater)⟩
      intro other hother _ _ _
      exact ⟨other, rfl, h other hother⟩

theorem pairwise_settles_piecesFrom :
    ∀ (lines : List Text) (within : Option (Text × List Text)),
      (∀ opening body, within = some (opening, body) → ∀ line ∈ body, closes line = false) →
        (piecesFrom within lines).Pairwise Piece.Settles := by
  intro lines
  induction lines with
  | nil =>
      intro within hbody
      cases within with
      | none => exact List.Pairwise.nil
      | some state =>
          -- the lines held back, of which only the first may be a fence that opens
          obtain ⟨opening, body⟩ := state
          exact pairwise_settles_map_line (hbody opening body rfl)
  | cons line rest ih =>
      intro within hbody
      cases within with
      | none =>
          rw [piecesFrom]
          split
          · refine ih _ ?_
            rintro _ _ ⟨⟩
            exact List.forall_mem_nil _
          · rename_i hopens
            refine List.pairwise_cons.mpr ⟨?_, ih none (fun _ _ h => nomatch h)⟩
            exact fun later _ => Piece.settles_of_not_opens hopens later
      | some state =>
          obtain ⟨opening, body⟩ := state
          rw [piecesFrom]
          split
          · refine List.pairwise_cons.mpr ⟨?_, ih none (fun _ _ h => nomatch h)⟩
            rintro later _ _ ⟨⟩
          · rename_i hcloses
            refine ih _ ?_
            rintro _ _ ⟨⟩
            have hline : closes line = false := Bool.eq_false_iff.mpr hcloses
            exact List.forall_mem_append.mpr
              ⟨hbody opening body rfl, List.forall_mem_singleton.mpr hline⟩

/-- **A FENCE THAT OPENS NO BLOCK** is followed by no closing fence. -/
theorem pairwise_settles (text : Text) : (pieces text).Pairwise Piece.Settles :=
  pairwise_settles_piecesFrom (Text.lines text) none fun _ _ h => nomatch h

/-! ## Texts without blocks -/

/-- A line that is followed by a closing fence opens no block. -/
def Quiet (line later : Text) : Prop :=
  opens line = true → closes later = false

theorem blocksFrom_eq_nil :
    ∀ (lines : List Text) (number : Nat) (within : Option (Nat × List Text)),
      (within.isSome = true → ∀ line ∈ lines, closes line = false) → lines.Pairwise Quiet →
        blocksFrom number within lines = [] := by
  intro lines
  induction lines with
  | nil => intro number within _ _; rw [blocksFrom]
  | cons line rest ih =>
      intro number within hopen hquiet
      obtain ⟨hline, hrest⟩ := List.pairwise_cons.mp hquiet
      cases within with
      | none =>
          rw [blocksFrom]
          refine ih _ _ ?_ hrest
          intro hsome later hlater
          by_cases hopens : opens line = true
          · exact hline later hlater hopens
          · rw [if_neg hopens] at hsome
            cases hsome
      | some state =>
          obtain ⟨hcloses, hrestcloses⟩ := List.forall_mem_cons.mp (hopen rfl)
          rw [blocksFrom, if_neg (Bool.eq_false_iff.mp hcloses)]
          exact ih _ _ (fun _ => hrestcloses) hrest

/-- **NO BLOCK** is in a text none of whose opening fences is followed by a closing one. -/
theorem blocks_eq_nil {text : Text} (h : (Text.lines text).Pairwise Quiet) : blocks text = [] :=
  blocksFrom_eq_nil (Text.lines text) 0 none (fun h => nomatch h) h

end NoteDigest.Directive
