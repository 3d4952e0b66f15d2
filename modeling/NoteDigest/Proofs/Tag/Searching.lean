import NoteDigest.Proofs.Tag.Standing

/-! # Searching — the tags of a line as the matches of a pattern

    A tag is a number sign and a row of tag characters in which one makes it a name
    (`Tag.pattern`).  Written as a pattern the row falls in three parts, and a search for it
    tries them in turn: the first part takes all it can, and gives characters back until
    another is left that makes a name (`Pattern.ways`).

    Wherever that character is found, the last part takes again what was given back, so a
    match takes the whole row (`match?_row_one_row`).  And since no number sign stands in a
    row, a search that goes on behind each match overlooks none: what it finds are the tags of
    the line (`inline_eq_map_findAll`). -/

namespace NoteDigest

namespace Text

/-! ## Patterns -/

/-- A pattern for the beginning of a text: one character, a row of characters that may be
    empty, or a pattern behind another. -/
inductive Pattern
  | one (p : Char → Bool)
  | row (p : Char → Bool)
  | next (first second : Pattern)

/-- The ways to take a row off a text, each with what it leaves: first the longest, then
    always one character less. -/
def rowWays (p : Char → Bool) : Text → List (Text × Text)
  | [] => [([], [])]
  | c :: rest =>
      if p c then (rowWays p rest).map (fun way => (c :: way.1, way.2)) ++ [([], c :: rest)]
      else [([], c :: rest)]

namespace Pattern

/-- The ways to match the beginning of a text, each with what it leaves, in the order in which
    they are tried. -/
def ways : Pattern → Text → List (Text × Text)
  | .one _, [] => []
  | .one p, c :: rest => if p c then [([c], rest)] else []
  | .row p, text => rowWays p text
  | .next first second, text =>
      (first.ways text).flatMap fun way =>
        (second.ways way.2).map fun more => (way.1 ++ more.1, more.2)

/-- What the first of these ways takes. -/
def match? (pattern : Pattern) (text : Text) : Option Text :=
  (pattern.ways text).head?.map (·.1)

/-- The matches in a text from left to right, none of which starts inside another.  A match
    starts where the text does or behind a blank; `free` says that the text starts at such a
    place, and `skip` how many of its characters belong to the match before. -/
def findFrom (pattern : Pattern) : (free : Bool) → (skip : Nat) → Text → List Text
  | _, _, [] => []
  | _, skip + 1, c :: rest => pattern.findFrom (isBlank c) skip rest
  | free, 0, c :: rest =>
      match if free then pattern.match? (c :: rest) else none with
      | some found => found :: pattern.findFrom (isBlank c) (found.length - 1) rest
      | none => pattern.findFrom (isBlank c) 0 rest

/-- The matches on a line. -/
def findAll (pattern : Pattern) (line : Text) : List Text :=
  pattern.findFrom true 0 line

variable {p q : Char → Bool} {c : Char} {text rest : Text} {way : Text × Text}

/-! ## Rows -/

/-- **A WAY TO TAKE A ROW** is any cut behind characters of the row. -/
theorem mem_rowWays_iff :
    way ∈ rowWays p text ↔ text = way.1 ++ way.2 ∧ ∀ c ∈ way.1, p c = true := by
  induction text generalizing way with
  | nil =>
      obtain ⟨taken, left⟩ := way
      constructor
      · intro hway
        cases List.mem_singleton.mp hway
        exact ⟨rfl, List.forall_mem_nil _⟩
      · rintro ⟨htext, -⟩
        obtain ⟨rfl, rfl⟩ := List.append_eq_nil_iff.mp htext.symm
        exact List.mem_singleton.mpr rfl
  | cons c rest ih =>
      obtain ⟨taken, left⟩ := way
      have hnothing : ([], c :: rest) ∈ rowWays p (c :: rest) := by
        rw [rowWays]
        split
        · exact List.mem_append_right _ (List.mem_singleton.mpr rfl)
        · exact List.mem_singleton.mpr rfl
      constructor
      · intro hway
        rw [rowWays] at hway
        split at hway
        · rename_i hc
          rcases List.mem_append.mp hway with hmore | hnone
          · obtain ⟨⟨taken', left'⟩, hmem, heq⟩ := List.mem_map.mp hmore
            obtain ⟨hrest, hall⟩ := ih.mp hmem
            cases heq
            exact ⟨congrArg (c :: ·) hrest, List.forall_mem_cons.mpr ⟨hc, hall⟩⟩
          · cases List.mem_singleton.mp hnone
            exact ⟨rfl, List.forall_mem_nil _⟩
        · cases List.mem_singleton.mp hway
          exact ⟨rfl, List.forall_mem_nil _⟩
      · rintro ⟨htext, hall⟩
        cases taken with
        | nil =>
            obtain rfl : c :: rest = left := htext
            exact hnothing
        | cons d taken =>
            obtain ⟨rfl, hrest⟩ := List.cons.inj htext
            obtain ⟨hc, hall⟩ := List.forall_mem_cons.mp hall
            rw [rowWays, if_pos hc]
            exact List.mem_append_left _ (List.mem_map.mpr ⟨(taken, left), ih.mpr ⟨hrest, hall⟩, rfl⟩)

/-- The first way takes the longest row. -/
theorem head?_rowWays (p : Char → Bool) (text : Text) :
    (rowWays p text).head? = some (text.takeWhile p, text.dropWhile p) := by
  induction text with
  | nil => rfl
  | cons c rest ih =>
      rw [rowWays]
      by_cases hc : p c = true
      · rw [if_pos hc, List.head?_append, List.head?_map, ih, List.takeWhile_cons_of_pos hc,
          List.dropWhile_cons_of_pos hc]
        rfl
      · rw [if_neg hc, List.takeWhile_cons_of_neg hc, List.dropWhile_cons_of_neg hc]
        rfl

/-! ## First ways -/

/-- Of two patterns, the first way that works for both is taken. -/
theorem head?_ways_next (first second : Pattern) (text : Text) :
    ((next first second).ways text).head?
      = (first.ways text).findSome? fun way =>
          (second.ways way.2).head?.map fun more => (way.1 ++ more.1, more.2) := by
  rw [ways, List.head?_flatMap]
  simp only [List.head?_map]

theorem head?_ways_one_row_nil : ((next (one q) (row p)).ways []).head? = none := rfl

/-- Behind one character the longest row is taken. -/
theorem head?_ways_one_row (q p : Char → Bool) (c : Char) (rest : Text) :
    ((next (one q) (row p)).ways (c :: rest)).head?
      = if q c then some (c :: rest.takeWhile p, rest.dropWhile p) else none := by
  rw [head?_ways_next, ways]
  split
  · rw [List.findSome?_singleton, ways, head?_rowWays]
    rfl
  · rfl

/-- **GIVING BACK** characters of a row changes nothing: a row that holds a character of a kind
    is matched as a whole, and any other row is not. -/
theorem match?_row_one_row (hkind : ∀ c, q c = true → p c = true) (text : Text) :
    (next (row p) (next (one q) (row p))).match? text
      = if (text.takeWhile p).any q then some (text.takeWhile p) else none := by
  rw [match?, head?_ways_next]
  cases hfound : ((row p).ways text).findSome? fun way =>
      ((next (one q) (row p)).ways way.2).head?.map fun more => (way.1 ++ more.1, more.2) with
  | some found =>
      obtain ⟨⟨taken, left⟩, hway, hmatch⟩ := List.exists_of_findSome?_eq_some hfound
      obtain ⟨rfl, htaken⟩ := mem_rowWays_iff.mp hway
      cases left with
      | nil =>
          rw [head?_ways_one_row_nil] at hmatch
          cases hmatch
      | cons c rest =>
          rw [head?_ways_one_row] at hmatch
          split at hmatch
          · rename_i hc
            -- what was taken, the character and the row behind it are the whole row
            have hrow : (taken ++ c :: rest).takeWhile p = taken ++ c :: rest.takeWhile p := by
              rw [List.takeWhile_append_of_pos htaken, List.takeWhile_cons_of_pos (hkind c hc)]
            have hany : ((taken ++ c :: rest).takeWhile p).any q = true := by
              rw [hrow]
              exact List.any_eq_true.mpr ⟨c, by simp, hc⟩
            rw [if_pos hany, hrow, ← Option.some.inj hmatch]
            rfl
          · cases hmatch
  | none =>
      have hnone : ¬ (text.takeWhile p).any q = true := by
        intro hany
        obtain ⟨c, hmem, hc⟩ := List.any_eq_true.mp hany
        obtain ⟨taken, more, hrow⟩ := List.append_of_mem hmem
        have htaken : ∀ d ∈ taken, p d = true := by
          intro d hd
          refine List.all_eq_true.mp (List.all_takeWhile (l := text)) d ?_
          rw [hrow]
          exact List.mem_append_left _ hd
        have htext : text = taken ++ c :: (more ++ text.dropWhile p) := by
          rw [← List.cons_append, ← List.append_assoc, ← hrow, List.takeWhile_append_dropWhile]
        have hway : (taken, c :: (more ++ text.dropWhile p)) ∈ (row p).ways text :=
          mem_rowWays_iff.mpr ⟨htext, htaken⟩
        have hmatch := List.findSome?_eq_none_iff.mp hfound _ hway
        rw [head?_ways_one_row, if_pos hc] at hmatch
        cases hmatch
      rw [if_neg hnone]
      rfl

theorem match?_next_one (q : Char → Bool) (second : Pattern) (c : Char) (rest : Text) :
    (next (one q) second).match? (c :: rest)
      = if q c then (second.match? rest).map (c :: ·) else none := by
  rw [match?, head?_ways_next, ways]
  split
  · rw [List.findSome?_singleton, match?, Option.map_map, Option.map_map]
    rfl
  · rfl

end Pattern
end Text

namespace Tag

open Text

variable {c : Char} {line rest : Text} {free : Bool}

/-! ## Tags -/

/-- A number sign, a row of tag characters, one that makes a name, and another row. -/
def pattern : Pattern :=
  .next (.one (· == '#')) (.next (.row isTagChar) (.next (.one isNameChar) (.row isTagChar)))

/-- The tag of a match: the slashes at its end are left out. -/
def ofMatch (found : Text) : Tag :=
  '#' :: dropEndWhile (· == '/') found.tail

/-- Where a tag may start, a number sign and the row behind it are matched. -/
theorem match?_pattern (free : Bool) (c : Char) (rest : Text) :
    (if free then pattern.match? (c :: rest) else none)
      = if free && c == '#' then
          if (rest.takeWhile isTagChar).any isNameChar then some (c :: rest.takeWhile isTagChar)
          else none
        else none := by
  cases free with
  | false => rfl
  | true =>
      rw [if_pos rfl, Bool.true_and, pattern, Pattern.match?_next_one,
        Pattern.match?_row_one_row fun _ => isTagChar_of_isNameChar]
      split
      · split
        · rfl
        · rfl
      · rfl

/-- **THE SEARCH**, inside a match or outside, finds the tags of what is left of the line: the
    characters to skip are tag characters, among which no tag starts. -/
theorem map_findFrom :
    ∀ (line : Text) (free : Bool) (skip : Nat), (∀ c ∈ line.take skip, isTagChar c = true) →
      (pattern.findFrom free skip line).map ofMatch = inlineFrom free line := by
  intro line
  induction line with
  | nil =>
      intro free skip _
      cases skip with
      | zero => rfl
      | succ skip => rfl
  | cons c rest ih =>
      intro free skip hskip
      cases skip with
      | succ skip =>
          obtain ⟨hc, hskip⟩ := List.forall_mem_cons.mp hskip
          have hsign : ¬ (free && c == '#') = true := by
            rintro hsign
            rw [beq_iff_eq.mp (Bool.and_eq_true_iff.mp hsign).2, isTagChar_sign] at hc
            cases hc
          rw [Pattern.findFrom, inlineFrom, if_neg hsign, ih (isBlank c) skip hskip]
          rfl
      | zero =>
          have hnext := ih (isBlank c) 0 (List.forall_mem_nil _)
          rw [Pattern.findFrom, inlineFrom, match?_pattern]
          by_cases hsign : (free && c == '#') = true
          · rw [if_pos hsign, if_pos hsign, atSign?]
            by_cases hname : (rest.takeWhile isTagChar).any isNameChar = true
            · -- the search goes on behind the row, whose characters are to be skipped
              have hrow : rest.take (rest.takeWhile isTagChar).length = rest.takeWhile isTagChar :=
                (List.prefix_iff_eq_take.mp (List.takeWhile_prefix isTagChar)).symm
              have hbehind := ih (isBlank c) (rest.takeWhile isTagChar).length (by
                rw [hrow]
                exact List.all_eq_true.mp List.all_takeWhile)
              rw [if_pos hname, if_pos hname, ← hbehind]
              rfl
            · rw [if_neg hname, if_neg hname, ← hnext]
              rfl
          · rw [if_neg hsign, if_neg hsign, ← hnext]
            rfl

/-- **THE TAGS OF A LINE** are what the search for the pattern finds on it. -/
theorem inline_eq_map_findAll (line : Text) :
    inline line = (pattern.findAll line).map ofMatch :=
  (map_findFrom line true 0 (List.forall_mem_nil _)).symm

end Tag
end NoteDigest
