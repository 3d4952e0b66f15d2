import NoteDigest.Proofs.Fragment.Rows

/-! # Linking — the last caret and the first bold run

    The link of a fragment is cut out of its row by two searches.  One looks for a caret and
    takes what follows up to the newline, unless another caret is in between; the other looks
    for two stars around something without stars.  Both try every place of the row from left
    to right.  On a row of one line this comes to

    * what stands behind the last caret (`anchor?_row_eq_some_iff`);
    * what stands in the first bold run (`bold?_eq_some_iff`), and the newline at the end of the
      row makes no difference (`bold?_append_newline`).

    What is blank between stars or behind the caret counts as absent: the search does not go
    on to the next one.  So the link is determined (`sourceLink_by_last_caret_and_first_bold`). -/

namespace NoteDigest.Fragment

variable {line text rest after anchor shown run : Text} {c : Char} {note : NoteRef}

theorem nonempty?_eq_some_iff {text? : Option Text} :
    nonempty? text? = some text ↔ text? = some text ∧ text ≠ [] := by
  constructor
  · intro h
    refine ⟨nonempty?_eq_some h, ?_⟩
    rintro rfl
    rw [nonempty?_eq_some h] at h
    cases h
  · rintro ⟨rfl, hne⟩
    obtain ⟨c, rest, rfl⟩ := List.exists_cons_of_ne_nil hne
    rfl

/-! ## The last caret -/

/-- A text behind a caret of a longer line is all of what follows its first character, or
    stands behind a caret there. -/
theorem exists_split_cons_iff {p : Text → Prop} :
    (∃ before after, c :: rest = before ++ '^' :: after ∧ p after)
      ↔ (c = '^' ∧ p rest) ∨ ∃ before after, rest = before ++ '^' :: after ∧ p after := by
  constructor
  · rintro ⟨before, after, hsplit, hp⟩
    cases before with
    | nil =>
        obtain ⟨rfl, rfl⟩ := List.cons.inj hsplit
        exact .inl ⟨rfl, hp⟩
    | cons d before =>
        obtain ⟨rfl, rfl⟩ := List.cons.inj hsplit
        exact .inr ⟨before, after, rfl, hp⟩
  · rintro (⟨rfl, hp⟩ | ⟨before, after, rfl, hp⟩)
    · exact ⟨[], rest, rfl, hp⟩
    · exact ⟨c :: before, after, rfl, hp⟩

/-- Up to the newline there is all of the line, if it holds no caret. -/
theorem toNewline?_row (hline : '\n' ∉ line) :
    toNewline? (line ++ ['\n']) = if '^' ∈ line then none else some line := by
  induction line with
  | nil => rfl
  | cons c rest ih =>
      obtain ⟨hc, hrest⟩ := not_or.mp (List.mem_cons.not.mp hline)
      rw [List.cons_append, toNewline?, ih hrest, if_neg (by simpa using Ne.symm hc)]
      by_cases hcaret : c = '^'
      · simp [hcaret]
      · rw [if_neg (by simpa using hcaret)]
        by_cases hmem : '^' ∈ rest
        · rw [if_pos hmem, if_pos (List.mem_cons_of_mem c hmem)]
          rfl
        · rw [if_neg hmem, if_neg (List.not_mem_cons_of_ne_of_not_mem (Ne.symm hcaret) hmem)]
          rfl

/-- A name takes one character at least, and the newline is none that it can take. -/
theorem anchorName?_row (hline : '\n' ∉ line) :
    anchorName? (line ++ ['\n']) = if line = [] ∨ '^' ∈ line then none else some line := by
  cases line with
  | nil => rfl
  | cons c rest =>
      have hrest : '\n' ∉ rest := fun hmem => hline (List.mem_cons_of_mem c hmem)
      rw [List.cons_append, anchorName?, toNewline?_row hrest]
      by_cases hcaret : c = '^'
      · simp [hcaret]
      · rw [if_neg (by simpa using hcaret)]
        by_cases hmem : '^' ∈ rest
        · rw [if_pos hmem, if_pos (.inr (List.mem_cons_of_mem c hmem))]
          rfl
        · rw [if_neg hmem, if_neg]
          · rfl
          · rintro (hnil | hcons)
            · cases hnil
            · exact List.not_mem_cons_of_ne_of_not_mem (Ne.symm hcaret) hmem hcons

/-- **THE ANCHOR** of a row is what stands behind its last caret, if anything does. -/
theorem anchor?_row_eq_some_iff (hline : '\n' ∉ line) :
    anchor? (line ++ ['\n']) = some anchor
      ↔ ∃ before after, line = before ++ '^' :: after
          ∧ '^' ∉ after ∧ after ≠ [] ∧ anchor = Text.trim after := by
  induction line with
  | nil => exact iff_of_false nofun (by simp)
  | cons c rest ih =>
      have hrest : '\n' ∉ rest := fun hmem => hline (List.mem_cons_of_mem c hmem)
      rw [exists_split_cons_iff, ← ih hrest, List.cons_append, anchor?]
      by_cases hcaret : c = '^'
      · rw [if_pos (by simpa using hcaret), anchorName?_row hrest]
        by_cases hlast : rest = [] ∨ '^' ∈ rest
        · -- nothing is behind this caret, or another caret
          rw [if_pos hlast]
          refine (or_iff_right ?_).symm
          rintro ⟨-, hfree, hne, -⟩
          rcases hlast with hnil | hmem
          · exact hne hnil
          · exact hfree hmem
        · rw [if_neg hlast]
          obtain ⟨hne, hfree⟩ := not_or.mp hlast
          have hnone : anchor? (rest ++ ['\n']) ≠ some anchor := by
            rw [Ne, ih hrest]
            rintro ⟨before, after, rfl, -⟩
            exact hfree (by simp)
          rw [or_iff_left hnone]
          simp [hcaret, hfree, hne, eq_comm]
      · rw [if_neg (by simpa using hcaret)]
        exact (or_iff_right fun h => hcaret h.1).symm

/-! ## The first bold run -/

/-- A bold run stands at the front of a text: something without stars between two stars and
    two stars. -/
def BoldAt (text run : Text) : Prop :=
  run ≠ [] ∧ '*' ∉ run ∧ ∃ after, text = ['*', '*'] ++ run ++ ['*', '*'] ++ after

/-- A bold run stands in a text, and none stands further to the left. -/
def FirstBold (text run : Text) : Prop :=
  ∃ i, BoldAt (text.drop i) run ∧ ∀ j < i, ∀ other, ¬ BoldAt (text.drop j) other

theorem toStars?_eq_some_iff :
    toStars? text = some run
      ↔ run ≠ [] ∧ '*' ∉ run ∧ ∃ after, text = run ++ '*' :: '*' :: after := by
  constructor
  · intro h
    rw [toStars?] at h
    split at h
    · rename_i hstars
      obtain ⟨hne, hstars⟩ := Bool.and_eq_true_iff.mp hstars
      obtain ⟨after, hafter⟩ := List.isPrefixOf_iff_prefix.mp hstars
      rw [← Option.some.inj h]
      refine ⟨by simpa using hne, ?_, after, ?_⟩
      · intro hmem
        have hstar := List.all_eq_true.mp List.all_takeWhile '*' hmem
        exact absurd hstar (by decide)
      · calc text = text.takeWhile (· != '*') ++ text.dropWhile (· != '*') :=
              List.takeWhile_append_dropWhile.symm
          _ = text.takeWhile (· != '*') ++ '*' :: '*' :: after := by rw [← hafter]; rfl
    · cases h
  · rintro ⟨hne, hfree, after, rfl⟩
    have hbody : ∀ c ∈ run, (c != '*') = true := by
      intro c hc
      refine bne_iff_ne.mpr ?_
      rintro rfl
      exact hfree hc
    have htake : (run ++ '*' :: '*' :: after).takeWhile (· != '*') = run := by
      rw [List.takeWhile_append_of_pos hbody]
      exact List.append_nil run
    have hdrop : (run ++ '*' :: '*' :: after).dropWhile (· != '*') = '*' :: '*' :: after := by
      rw [List.dropWhile_append_of_pos hbody]
      rfl
    rw [toStars?, htake, hdrop, if_pos]
    simp [hne]

theorem boldAt_iff {inner : Text} : BoldAt ('*' :: '*' :: inner) run ↔ toStars? inner = some run := by
  rw [toStars?_eq_some_iff, BoldAt]
  refine and_congr_right fun _ => and_congr_right fun _ => exists_congr fun after => ?_
  simp

theorem BoldAt.unique {other : Text} (h : BoldAt text run) (h' : BoldAt text other) :
    run = other := by
  have ⟨_, _, after, hafter⟩ := h
  obtain rfl : text = '*' :: '*' :: (run ++ ['*', '*'] ++ after) := by simpa using hafter
  exact Option.some.inj ((boldAt_iff.mp h).symm.trans (boldAt_iff.mp h'))

/-- A bold run at the front is the first. -/
theorem BoldAt.firstBold_iff {other : Text} (h : BoldAt text run) :
    FirstBold text other ↔ other = run := by
  constructor
  · rintro ⟨i, hbold, hfirst⟩
    cases i with
    | zero => exact hbold.unique h
    | succ i => exact absurd h (hfirst 0 (Nat.succ_pos i) run)
  · rintro rfl
    exact ⟨0, h, fun j hj => absurd hj (Nat.not_lt_zero j)⟩

/-- Where none stands at the front, the first one stands behind the first character. -/
theorem firstBold_cons_iff (h : ∀ other, ¬ BoldAt (c :: rest) other) :
    FirstBold (c :: rest) run ↔ FirstBold rest run := by
  constructor
  · rintro ⟨i, hbold, hfirst⟩
    cases i with
    | zero => exact absurd hbold (h run)
    | succ i => exact ⟨i, hbold, fun j hj => hfirst (j + 1) (Nat.succ_lt_succ hj)⟩
  · rintro ⟨i, hbold, hfirst⟩
    refine ⟨i + 1, hbold, fun j hj => ?_⟩
    cases j with
    | zero => exact h
    | succ j => exact hfirst j (Nat.lt_of_succ_lt_succ hj)

theorem not_boldAt (h : ∀ inner, text ≠ '*' :: '*' :: inner) : ¬ BoldAt text run := by
  rintro ⟨-, -, after, rfl⟩
  exact h (run ++ ['*', '*'] ++ after) (by simp)

/-- **THE BOLD TEXT** is what stands in the first bold run. -/
theorem bold?_eq_some_iff :
    bold? text = some shown ↔ ∃ run, FirstBold text run ∧ shown = Text.trim run := by
  fun_induction bold? text with
  | case1 =>
      refine iff_of_false (by simp) ?_
      rintro ⟨run, ⟨i, hbold, -⟩, -⟩
      rw [List.drop_nil] at hbold
      exact not_boldAt (fun inner => (List.cons_ne_nil _ _).symm) hbold
  | case2 inner found hfound =>
      have hbold : BoldAt ('*' :: '*' :: inner) found := boldAt_iff.mpr hfound
      simp only [hbold.firstBold_iff, exists_eq_left, Option.some.injEq]
      exact eq_comm
  | case3 inner hnone ih =>
      have hnotHere : ∀ other, ¬ BoldAt ('*' :: '*' :: inner) other := by
        intro other hbold
        rw [boldAt_iff, hnone] at hbold
        cases hbold
      simp only [ih, firstBold_cons_iff hnotHere]
  | case4 c rest hstars ih =>
      have hnotHere : ∀ other, ¬ BoldAt (c :: rest) other := by
        intro other
        refine not_boldAt fun inner hinner => ?_
        obtain ⟨rfl, rfl⟩ := List.cons.inj hinner
        exact hstars inner rfl rfl
      simp only [ih, firstBold_cons_iff hnotHere]

/-- A newline at the end belongs to no bold run. -/
theorem toStars?_append_newline (text : Text) : toStars? (text ++ ['\n']) = toStars? text := by
  refine Option.ext fun run => ?_
  rw [toStars?_eq_some_iff, toStars?_eq_some_iff]
  refine and_congr_right fun _ => and_congr_right fun _ => ?_
  constructor
  · rintro ⟨after, hafter⟩
    rcases List.eq_nil_or_concat' after with rfl | ⟨others, last, rfl⟩
    · have hlast := congrArg List.getLast? hafter
      simp at hlast
    · have hglued : text ++ ['\n'] = run ++ '*' :: '*' :: others ++ [last] := by
        rw [hafter]
        simp
      exact ⟨others, (List.append_inj' hglued rfl).1⟩
  · rintro ⟨after, rfl⟩
    exact ⟨after ++ ['\n'], by simp⟩

theorem bold?_append_newline (text : Text) : bold? (text ++ ['\n']) = bold? text := by
  fun_induction bold? text with
  | case1 => rfl
  | case2 inner found hfound =>
      show bold? ('*' :: '*' :: (inner ++ ['\n'])) = _
      rw [bold?, toStars?_append_newline, hfound]
  | case3 inner hnone ih =>
      show bold? ('*' :: '*' :: (inner ++ ['\n'])) = _
      rw [bold?, toStars?_append_newline, hnone]
      exact ih
  | case4 c rest hstars ih =>
      rw [List.cons_append, bold?, ih]
      rintro inner rfl hinner
      cases rest with
      | nil => cases hinner
      | cons d others =>
          obtain ⟨rfl, -⟩ := List.cons.inj hinner
          exact hstars others rfl rfl

/-! ## The link -/

/-- The line has an anchor: what stands behind its last caret, trimmed, if that is something. -/
def Anchors (line anchor : Text) : Prop :=
  ∃ before after, line = before ++ '^' :: after ∧ '^' ∉ after ∧ anchor = Text.trim after
    ∧ anchor ≠ []

/-- The line has a bold text: what stands in its first bold run, trimmed, if that is something. -/
def Emphasises (line shown : Text) : Prop :=
  ∃ run, FirstBold line run ∧ shown = Text.trim run ∧ shown ≠ []

/-- What a link to a note leads to. -/
def linkTarget (note : NoteRef) : (anchor : Option Text) → Text
  | some anchor => note.path ++ ['#', '^'] ++ anchor
  | none => note.path

/-- What a link to a note is shown by. -/
def linkLabel (note : NoteRef) : (anchor shown : Option Text) → Text
  | _, some shown => shown
  | some anchor, none => note.name ++ ['=', '>'] ++ anchor
  | none, none => note.name

theorem nonempty?_anchor?_row (hline : '\n' ∉ line) :
    nonempty? (anchor? (line ++ ['\n'])) = some anchor ↔ Anchors line anchor := by
  rw [nonempty?_eq_some_iff, anchor?_row_eq_some_iff hline, Anchors]
  constructor
  · rintro ⟨⟨before, after, hsplit, hfree, -, hanchor⟩, hne⟩
    exact ⟨before, after, hsplit, hfree, hanchor, hne⟩
  · rintro ⟨before, after, hsplit, hfree, hanchor, hne⟩
    refine ⟨⟨before, after, hsplit, hfree, ?_, hanchor⟩, hne⟩
    rintro rfl
    exact hne hanchor

theorem nonempty?_bold?_row (line : Text) :
    nonempty? (bold? (line ++ ['\n'])) = some shown ↔ Emphasises line shown := by
  rw [nonempty?_eq_some_iff, bold?_append_newline, bold?_eq_some_iff, Emphasises, ← exists_and_right]
  simp only [and_assoc]

theorem sourceLink_eq (text : Text) (note : NoteRef) :
    sourceLink text note
      = "Source: **[[".toList ++ linkTarget note (nonempty? (anchor? text)) ++ ['|']
        ++ linkLabel note (nonempty? (anchor? text)) (nonempty? (bold? text))
        ++ "]]**\n".toList := by
  unfold sourceLink
  cases nonempty? (anchor? text) <;> cases nonempty? (bold? text) <;> rfl

/-- **THE LINK IS DETERMINED** by what stands behind the last caret of its line, and by the
    first bold run:

    * it leads to the note, and there to the anchor if the line has one;
    * it is shown by the bold text of the line; without one, by the name of the note, with the
      anchor if there is one. -/
theorem sourceLink_by_last_caret_and_first_bold (hline : '\n' ∉ line) (note : NoteRef) :
    ∃ anchor shown : Option Text,
      (∀ a, anchor = some a ↔ Anchors line a)
        ∧ (∀ b, shown = some b ↔ Emphasises line b)
        ∧ sourceLink (line ++ ['\n']) note
          = "Source: **[[".toList ++ linkTarget note anchor ++ ['|'] ++ linkLabel note anchor shown
            ++ "]]**\n".toList := by
  refine ⟨nonempty? (anchor? (line ++ ['\n'])), nonempty? (bold? (line ++ ['\n'])), ?_, ?_, ?_⟩
  · exact fun a => nonempty?_anchor?_row hline
  · exact fun b => nonempty?_bold?_row line
  · exact sourceLink_eq (line ++ ['\n']) note

/-- Of two carets the last counts, and of three stars the last two. -/
theorem sourceLink_of_power_line :
    '\n' ∉ "x^2 ***Plan** or **B** ^leg ".toList
      ∧ Anchors "x^2 ***Plan** or **B** ^leg ".toList "leg".toList
      ∧ Emphasises "x^2 ***Plan** or **B** ^leg ".toList "Plan".toList
      ∧ sourceLink ("x^2 ***Plan** or **B** ^leg ".toList ++ ['\n'])
          ⟨"notes/log.md".toList, "log".toList⟩
        = "Source: **[[notes/log.md#^leg|Plan]]**\n".toList := by
  have hline : '\n' ∉ "x^2 ***Plan** or **B** ^leg ".toList := by decide
  have hanchors : Anchors "x^2 ***Plan** or **B** ^leg ".toList "leg".toList :=
    ⟨"x^2 ***Plan** or **B** ".toList, "leg ".toList, by decide, by decide, by decide, by decide⟩
  have hbold : Emphasises "x^2 ***Plan** or **B** ^leg ".toList "Plan".toList :=
    (nonempty?_bold?_row _).mp (by decide)
  obtain ⟨anchor, shown, hanchor, hshown, hlink⟩ :=
    sourceLink_by_last_caret_and_first_bold hline ⟨"notes/log.md".toList, "log".toList⟩
  rw [(hanchor _).mpr hanchors, (hshown _).mpr hbold] at hlink
  exact ⟨hline, hanchors, hbold, hlink⟩

/-- Blanks in the first bold run, and nothing behind the last caret. -/
example : sourceLink "** ** or **B** ^leg ^\n".toList ⟨"notes/log.md".toList, "log".toList⟩
    = "Source: **[[notes/log.md|log]]**\n".toList := by decide

end NoteDigest.Fragment
