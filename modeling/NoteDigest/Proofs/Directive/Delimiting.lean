import Mathlib.Data.List.Basic
import NoteDigest.Directive.Block

/-! # Delimiting — which blocks are those of a text

    A block starts at the first opening fence behind the block before it, and ends at the
    first closing fence behind its own opening fence; its body is what stands between the two
    (`Block.IsNext`).  Behind the last block no opening fence is followed by a closing one
    (`NoFurther`).

    These rules leave no choice: one list of blocks meets them (`Delimits.unique`), the
    scanner's does (`delimits_blocksFrom`), and its fences come one below the other
    (`Delimits.ascending`). -/

namespace NoteDigest.Directive

variable {p : Text → Bool} {lines rest : List Text} {line : Text} {start stop i j : Nat}
  {b other : Block} {found others : List Block}

/-! ## The first line of a kind -/

/-- No line from line `start` on and in front of line `stop` satisfies `p`. -/
def NoneIn (p : Text → Bool) (lines : List Text) (start stop : Nat) : Prop :=
  ∀ i line, start ≤ i → i < stop → lines[i]? = some line → p line = false

/-- Line `i` is the first from line `start` on that satisfies `p`. -/
structure IsFirst (p : Text → Bool) (lines : List Text) (start i : Nat) : Prop where
  le : start ≤ i
  line : ∃ line, lines[i]? = some line ∧ p line = true
  none : NoneIn p lines start i

theorem noneIn_self (p : Text → Bool) (lines : List Text) (start : Nat) :
    NoneIn p lines start start := by
  intro i line hle hlt
  omega

/-- One more line that does not satisfy `p`. -/
theorem NoneIn.succ (h : NoneIn p lines start stop) (hline : lines[stop]? = some line)
    (hp : p line = false) : NoneIn p lines start (stop + 1) := by
  intro i other hle hlt hother
  rcases Nat.lt_succ_iff_lt_or_eq.mp hlt with hlt | rfl
  · exact h i other hle hlt hother
  · rw [hline] at hother
    exact Option.some.inj hother ▸ hp

theorem IsFirst.le_of (h : IsFirst p lines start i) (hle : start ≤ j)
    (hline : lines[j]? = some line) (hp : p line = true) : i ≤ j := by
  refine Nat.le_of_not_lt fun hlt => ?_
  rw [h.none j line hle hlt hline] at hp
  cases hp

theorem IsFirst.unique (h : IsFirst p lines start i) (h' : IsFirst p lines start j) : i = j := by
  obtain ⟨line, hline, hp⟩ := h.line
  obtain ⟨line', hline', hp'⟩ := h'.line
  exact Nat.le_antisymm (h.le_of h'.le hline' hp') (h'.le_of h.le hline hp)

/-! ## The rules -/

/-- The block is the next from line `start` on: its fences are the first that open and close
    a block, and its body is what stands between them. -/
structure Block.IsNext (b : Block) (lines : List Text) (start : Nat) : Prop where
  first : IsFirst opens lines start b.first
  last : IsFirst closes lines (b.first + 1) b.last
  body : b.body = Text.unlines ((lines.take b.last).drop (b.first + 1))

/-- From line `start` on no opening fence is followed by a closing one. -/
def NoFurther (lines : List Text) (start : Nat) : Prop :=
  ∀ i, start ≤ i → ∀ line, lines[i]? = some line → opens line = true →
    NoneIn closes lines (i + 1) lines.length

/-- The line behind the last of some blocks; `start` when there are none. -/
def behind (start : Nat) (found : List Block) : Nat :=
  (found.getLast?.map (·.last + 1)).getD start

/-- **THE RULES** for the blocks of some lines from line `start` on: each is the next behind
    those in front of it, and behind the last there is no further one. -/
structure Delimits (found : List Block) (lines : List Text) (start : Nat) : Prop where
  each : ∀ before b after, found = before ++ b :: after → b.IsNext lines (behind start before)
  complete : NoFurther lines (behind start found)

theorem behind_cons (start : Nat) (b : Block) (found : List Block) :
    behind start (b :: found) = behind (b.last + 1) found := by
  rw [behind, behind, List.getLast?_cons]
  cases found.getLast? <;> rfl

theorem delimits_nil_iff : Delimits [] lines start ↔ NoFurther lines start := by
  constructor
  · intro h
    exact h.complete
  · intro h
    exact ⟨fun before b after hnil => by simp at hnil, h⟩

theorem delimits_cons_iff :
    Delimits (b :: found) lines start
      ↔ b.IsNext lines start ∧ Delimits found lines (b.last + 1) := by
  constructor
  · rintro ⟨heach, hcomplete⟩
    refine ⟨heach [] b found rfl, ⟨fun before next after hfound => ?_, ?_⟩⟩
    · rw [← behind_cons start]
      exact heach (b :: before) next after (congrArg (b :: ·) hfound)
    · rw [← behind_cons start]
      exact hcomplete
  · rintro ⟨hnext, heach, hcomplete⟩
    refine ⟨fun before next after hfound => ?_, (behind_cons start b found).symm ▸ hcomplete⟩
    cases before with
    | nil =>
        obtain ⟨rfl, -⟩ := List.cons.inj hfound
        exact hnext
    | cons first before =>
        obtain ⟨rfl, hrest⟩ := List.cons.inj hfound
        rw [behind_cons]
        exact heach before next after hrest

/-! ## They leave no choice -/

theorem Block.IsNext.unique (h : b.IsNext lines start) (h' : other.IsNext lines start) :
    b = other := by
  obtain ⟨body, first, last⟩ := b
  obtain ⟨body', first', last'⟩ := other
  obtain rfl : first = first' := h.first.unique h'.first
  obtain rfl : last = last' := h.last.unique h'.last
  obtain rfl : body = body' := h.body.trans h'.body.symm
  rfl

/-- Where there is a next block, an opening fence is followed by a closing one. -/
theorem Block.IsNext.not_noFurther (h : b.IsNext lines start) : ¬ NoFurther lines start := by
  intro hnone
  obtain ⟨opening, hopening, hopens⟩ := h.first.line
  obtain ⟨closing, hclosing, hcloses⟩ := h.last.line
  have hlength : b.last < lines.length := (List.getElem?_eq_some_iff.mp hclosing).1
  rw [hnone b.first h.first.le opening hopening hopens b.last closing h.last.le hlength hclosing]
    at hcloses
  cases hcloses

/-- **ONE LIST** of blocks meets the rules at most. -/
theorem Delimits.unique (h : Delimits found lines start) (h' : Delimits others lines start) :
    found = others := by
  induction found generalizing start others with
  | nil =>
      cases others with
      | nil => rfl
      | cons other others =>
          exact absurd (delimits_nil_iff.mp h) (delimits_cons_iff.mp h').1.not_noFurther
  | cons b found ih =>
      obtain ⟨hnext, hfound⟩ := delimits_cons_iff.mp h
      cases others with
      | nil => exact absurd (delimits_nil_iff.mp h') hnext.not_noFurther
      | cons other others =>
          obtain ⟨hnext', hothers⟩ := delimits_cons_iff.mp h'
          obtain rfl : b = other := hnext.unique hnext'
          rw [ih hfound hothers]

/-- The lines of the fences of some blocks. -/
def fenceLines (found : List Block) : List Nat :=
  found.flatMap fun b => [b.first, b.last]

/-- **ONE BELOW THE OTHER** stand the fences of blocks that meet the rules. -/
theorem Delimits.ascending (h : Delimits found lines start) :
    (fenceLines found).Pairwise (· < ·) ∧ ∀ n ∈ fenceLines found, start ≤ n := by
  induction found generalizing start with
  | nil => exact ⟨List.Pairwise.nil, List.forall_mem_nil _⟩
  | cons b found ih =>
      obtain ⟨hnext, hfound⟩ := delimits_cons_iff.mp h
      obtain ⟨hordered, hbehind⟩ := ih hfound
      have hfirst : start ≤ b.first := hnext.first.le
      have hlast : b.first + 1 ≤ b.last := hnext.last.le
      have hfences : fenceLines (b :: found) = b.first :: b.last :: fenceLines found := rfl
      rw [hfences]
      refine ⟨List.pairwise_cons.mpr ⟨?_, List.pairwise_cons.mpr ⟨hbehind, hordered⟩⟩, ?_⟩
      · refine List.forall_mem_cons.mpr ⟨hlast, fun n hn => ?_⟩
        have hn := hbehind n hn
        omega
      · refine List.forall_mem_cons.mpr ⟨hfirst, List.forall_mem_cons.mpr ⟨by omega, ?_⟩⟩
        intro n hn
        have hn := hbehind n hn
        omega

/-! ## The scanner keeps to them -/

/-- What the scanner has met from line `start` on when it comes to line `number`: no opening
    fence yet, or the first one and behind it no closing fence. -/
def Met (lines : List Text) (start number : Nat) : Option (Nat × List Text) → Prop
  | none => NoneIn opens lines start number
  | some (first, body) =>
      IsFirst opens lines start first ∧ first < number
        ∧ NoneIn closes lines (first + 1) number ∧ body = (lines.take number).drop (first + 1)

section Step

variable {number first : Nat} {body : List Text} {within : Option (Nat × List Text)}

/-- A line in front of any block opens one or is passed over. -/
theorem Met.pass (h : Met lines start number none) (hle : start ≤ number)
    (hline : lines[number]? = some line) :
    Met lines start (number + 1) (if opens line then some (number, []) else none) := by
  by_cases hopens : opens line = true
  · rw [if_pos hopens]
    have hbody : (lines.take (number + 1)).drop (number + 1) = [] :=
      List.drop_eq_nil_of_le (List.length_take_le _ _)
    exact ⟨⟨hle, ⟨line, hline, hopens⟩, h⟩, Nat.lt_succ_self _, noneIn_self _ _ _, hbody.symm⟩
  · rw [if_neg hopens]
    exact NoneIn.succ h hline (Bool.eq_false_iff.mpr hopens)

/-- A line in an open block that does not close it joins the body. -/
theorem Met.extend (h : Met lines start number (some (first, body)))
    (hline : lines[number]? = some line) (hcloses : closes line = false) :
    Met lines start (number + 1) (some (first, body ++ [line])) := by
  obtain ⟨hfirst, hlt, hnone, rfl⟩ := h
  have htake : lines.take (number + 1) = lines.take number ++ [line] := by
    rw [List.take_add_one, hline]
    rfl
  have hlength : first + 1 ≤ (lines.take number).length := by
    have hnumber : number < lines.length := (List.getElem?_eq_some_iff.mp hline).1
    rw [List.length_take]
    omega
  refine ⟨hfirst, Nat.lt_succ_of_lt hlt, hnone.succ hline hcloses, ?_⟩
  rw [htake, List.drop_append_of_le_length hlength]

/-- A closing fence makes the open block the next one. -/
theorem Met.close (h : Met lines start number (some (first, body)))
    (hline : lines[number]? = some line) (hcloses : closes line = true) :
    (Block.mk (Text.unlines body) first number).IsNext lines start := by
  obtain ⟨hfirst, hlt, hnone, rfl⟩ := h
  exact ⟨hfirst, ⟨hlt, ⟨line, hline, hcloses⟩, hnone⟩, rfl⟩

/-- At the end of the lines nothing is left that could be a block. -/
theorem Met.noFurther (h : Met lines start number within) (hend : lines.length ≤ number) :
    NoFurther lines start := by
  intro i hi opening hopening hopens
  have hlength : i < lines.length := (List.getElem?_eq_some_iff.mp hopening).1
  cases within with
  | none =>
      rw [h i opening hi (Nat.lt_of_lt_of_le hlength hend) hopening] at hopens
      cases hopens
  | some state =>
      -- the open block starts no later, so its closing fence would have been met
      obtain ⟨hfirst, -, hnone, -⟩ := h
      have hle := hfirst.le_of hi hopening hopens
      intro j closing hj hjlength hclosing
      exact hnone j closing (by omega) (by omega) hclosing

end Step

/-- **THE RUN** of the scanner keeps to the rules, by induction on the lines to come. -/
theorem delimits_blocksFrom :
    ∀ (rest : List Text) (start number : Nat) (within : Option (Nat × List Text)),
      lines.drop number = rest → start ≤ number → Met lines start number within →
        Delimits (blocksFrom number within rest) lines start := by
  intro rest
  induction rest with
  | nil =>
      intro start number within hrest _ hmet
      rw [blocksFrom]
      exact delimits_nil_iff.mpr (hmet.noFurther (List.drop_eq_nil_iff.mp hrest))
  | cons line rest ih =>
      intro start number within hrest hle hmet
      have hline : lines[number]? = some line := by
        rw [← List.head?_drop, hrest]
        rfl
      have hnext : lines.drop (number + 1) = rest := by
        rw [← List.drop_drop, hrest]
        rfl
      cases within with
      | none =>
          rw [blocksFrom]
          exact ih start (number + 1) _ hnext (by omega) (hmet.pass hle hline)
      | some state =>
          obtain ⟨first, body⟩ := state
          rw [blocksFrom]
          by_cases hcloses : closes line = true
          · rw [if_pos hcloses]
            refine delimits_cons_iff.mpr ⟨hmet.close hline hcloses, ?_⟩
            exact ih (number + 1) (number + 1) none hnext (Nat.le_refl _) (noneIn_self _ _ _)
          · rw [if_neg hcloses]
            have hextend := hmet.extend hline (Bool.eq_false_iff.mpr hcloses)
            exact ih start (number + 1) _ hnext (by omega) hextend

theorem delimits_blocks (text : Text) : Delimits (blocks text) (Text.lines text) 0 :=
  delimits_blocksFrom (Text.lines text) 0 0 none rfl (Nat.le_refl 0) (noneIn_self _ _ _)

/-- **THE BLOCKS OF A TEXT** are the only list of blocks that meets the rules from the first
    line on, and their fences stand one below the other. -/
theorem blocks_delimited (text : Text) :
    (∀ found, Delimits found (Text.lines text) 0 ↔ found = blocks text)
      ∧ (fenceLines (blocks text)).Pairwise (· < ·) := by
  have hblocks := delimits_blocks text
  refine ⟨fun found => ⟨fun h => h.unique hblocks, ?_⟩, hblocks.ascending.1⟩
  rintro rfl
  exact hblocks

end NoteDigest.Directive
