import NoteDigest.Proofs.Note.Composing
import NoteDigest.Proofs.Tag.Inline
import NoteDigest.Proofs.Tag.Searching

/-! # Positions — one tag for each place of a line where one starts

    A tag starts at a position of a line where a number sign stands, at the start of the line
    or behind a blank, with a character that makes a name in the row of tag characters behind
    it (`StartsAt`).  Neither the tags before nor what was tried in vain before has a part in
    that, so the tags of a line, from left to right, are those at these positions
    (`inline_eq_map_positions`).

    Dropping the slashes at the end of a row leaves the characters that make a name, for a
    slash makes none (`hasName_tagAt`). -/

namespace NoteDigest.Tag

variable {c : Char} {text rest : Text} {free : Bool} {i : Nat}

/-! ## Places -/

/-- The row of tag characters behind position `i` of a line. -/
def rowAt (text : Text) (i : Nat) : Text :=
  (text.drop (i + 1)).takeWhile isTagChar

/-- A tag starts at position `i` of a line: a number sign stands there, at the start of the line
    or behind a blank, and some character of the row behind it makes a name. -/
def StartsAt (text : Text) (i : Nat) : Prop :=
  text[i]? = some '#' ∧ (i = 0 ∨ (text[i - 1]?).any Text.isBlank = true)
    ∧ ∃ c ∈ rowAt text i, isNameChar c = true

instance (text : Text) (i : Nat) : Decidable (StartsAt text i) :=
  decidable_of_iff (text[i]? = some '#' ∧ (i = 0 ∨ (text[i - 1]?).any Text.isBlank = true)
    ∧ (rowAt text i).any isNameChar = true) (by rw [StartsAt, List.any_eq_true])

/-- The positions of a line where tags start, from left to right. -/
def positions (text : Text) : List Nat :=
  (List.range text.length).filter fun i => decide (StartsAt text i)

/-- The tag at a position: the number sign and the row behind it, without the slashes at the
    end. -/
def tagAt (text : Text) (i : Nat) : Tag :=
  '#' :: Text.dropEndWhile (· == '/') (rowAt text i)

theorem mem_positions : i ∈ positions text ↔ StartsAt text i := by
  rw [positions, List.mem_filter, List.mem_range, decide_eq_true_iff]
  refine ⟨fun h => h.2, fun h => ⟨?_, h⟩⟩
  exact (List.getElem?_eq_some_iff.mp h.1).1

theorem ascending_positions (text : Text) : (positions text).Pairwise (· < ·) :=
  List.pairwise_lt_range.filter _

/-! ## The scan by positions -/

/-- The same for a text that starts where a tag may start, or where none may. -/
def StartsFrom (free : Bool) (text : Text) (i : Nat) : Prop :=
  text[i]? = some '#' ∧ opensBehind free (text.take i) = true
    ∧ ∃ c ∈ rowAt text i, isNameChar c = true

instance (free : Bool) (text : Text) (i : Nat) : Decidable (StartsFrom free text i) :=
  decidable_of_iff (text[i]? = some '#' ∧ opensBehind free (text.take i) = true
    ∧ (rowAt text i).any isNameChar = true) (by rw [StartsFrom, List.any_eq_true])

theorem startsFrom_zero :
    StartsFrom free (c :: rest) 0
      ↔ (free && c == '#') = true ∧ (rest.takeWhile isTagChar).any isNameChar = true := by
  rw [Bool.and_eq_true, beq_iff_eq, List.any_eq_true, and_comm (a := free = true), and_assoc]
  exact and_congr Option.some_inj Iff.rfl

/-- Behind the first character only whether it is a blank counts of it. -/
theorem startsFrom_succ :
    StartsFrom free (c :: rest) (i + 1) ↔ StartsFrom (Text.isBlank c) rest i := by
  rw [StartsFrom, List.take_succ_cons, opensBehind_cons]
  exact Iff.rfl

theorem startsFrom_true_iff (text : Text) (i : Nat) :
    StartsFrom true text i ↔ StartsAt text i := by
  refine and_congr_right fun hsign => and_congr_left fun _ => ?_
  have hlt : i < text.length := (List.getElem?_eq_some_iff.mp hsign).1
  cases i with
  | zero => exact iff_of_true rfl (.inl rfl)
  | succ i =>
      have hbefore : text[i]? = some text[i] := List.getElem?_eq_getElem (by omega)
      rw [opensBehind, List.getLast?_take, if_neg (Nat.succ_ne_zero i), Nat.add_sub_cancel,
        hbefore]
      simp

/-- **THE SCAN** finds a tag at each position where one starts, from left to right. -/
theorem inlineFrom_eq_map_filter (text : Text) (free : Bool) :
    inlineFrom free text
      = ((List.range text.length).filter fun i => decide (StartsFrom free text i)).map
          (tagAt text) := by
  induction text generalizing free with
  | nil => rfl
  | cons c rest ih =>
      have hlater : ((List.range rest.length).map Nat.succ).filter
            (fun i => decide (StartsFrom free (c :: rest) i))
          = ((List.range rest.length).filter
              fun i => decide (StartsFrom (Text.isBlank c) rest i)).map Nat.succ := by
        rw [List.filter_map]
        refine congrArg (List.map Nat.succ) (List.filter_congr fun i _ => ?_)
        exact decide_eq_decide.mpr startsFrom_succ
      have htags : (fun i => tagAt (c :: rest) i.succ) = tagAt rest := rfl
      rw [inlineFrom, ih, List.length_cons, List.range_succ_eq_map, List.filter_cons, hlater,
        atSign?]
      by_cases hstarts : StartsFrom free (c :: rest) 0
      · obtain ⟨hsign, hname⟩ := startsFrom_zero.mp hstarts
        rw [if_pos hsign, if_pos hname, if_pos (decide_eq_true hstarts), List.map_cons,
          List.map_map]
        rfl
      · rw [if_neg fun h => hstarts (decide_eq_true_iff.mp h), List.map_map]
        by_cases hsign : (free && c == '#') = true
        · rw [if_pos hsign, if_neg fun hname => hstarts (startsFrom_zero.mpr ⟨hsign, hname⟩)]
          rfl
        · rw [if_neg hsign]
          rfl

/-- **THE TAGS OF A LINE** are those at the positions where tags start. -/
theorem inline_eq_map_positions (text : Text) :
    inline text = (positions text).map (tagAt text) := by
  rw [inline, inlineFrom_eq_map_filter, positions]
  simp only [startsFrom_true_iff]

/-! ## What is found -/

/-- **WITHOUT THE SLASHES** at its end a row still holds what makes it a name. -/
theorem hasName_tagAt (h : StartsAt text i) :
    ∃ row, tagAt text i = '#' :: row ∧ (∃ c ∈ row, isNameChar c = true)
      ∧ row.getLast? ≠ some '/' ∧ ∀ c ∈ row, Text.isBlank c = false ∧ c ≠ '#' := by
  obtain ⟨-, -, c, hc, hname⟩ := h
  refine ⟨_, rfl, ⟨c, mem_dropEndWhile_of_isNameChar hc hname, hname⟩,
    getLast?_dropEndWhile_ne_slash _, fun d hd => ?_⟩
  have hrow : isTagChar d = true :=
    List.all_eq_true.mp List.all_takeWhile d ((Text.dropEndWhile_isPrefix _ _).mem hd)
  refine ⟨isBlank_of_isTagChar hrow, ?_⟩
  rintro rfl
  rw [isTagChar_sign] at hrow
  cases hrow

end NoteDigest.Tag

namespace NoteDigest.Note

open Tag

/-- **THE TAGS ON A LINE** that stands behind the front matter, outside fenced blocks, and is no
    fence:

    * from left to right there is one for each position where a tag starts, and no other;
    * they are what the search for the pattern of tags finds on the line;
    * each is a number sign and a row that still holds a character that makes a name, does not
      end with a slash, and has no blank and no number sign in it. -/
theorem tags_on_line {lines : List Text} {number : Nat} {line : Text}
    (hline : lines[number]? = some line) (hreads : ReadsLine lines number) :
    (occurrencesIn lines).filter (·.first == number)
        = (positions line).map (fun i => Occurrence.on number (tagAt line i))
      ∧ (positions line).Pairwise (· < ·) ∧ (∀ i, i ∈ positions line ↔ StartsAt line i)
      ∧ (positions line).map (tagAt line) = (pattern.findAll line).map ofMatch
      ∧ ∀ i ∈ positions line, ∃ row, tagAt line i = '#' :: row
          ∧ (∃ c ∈ row, isNameChar c = true) ∧ row.getLast? ≠ some '/'
          ∧ ∀ c ∈ row, Text.isBlank c = false ∧ c ≠ '#' := by
  refine ⟨?_, ascending_positions line, fun i => mem_positions, ?_, fun i hi => ?_⟩
  · rw [filter_occurrencesIn hline hreads, lineOccurrences, inline_eq_map_positions,
      List.map_map]
    rfl
  · rw [← inline_eq_map_positions, inline_eq_map_findAll]
  · exact hasName_tagAt (mem_positions.mp hi)

/-- A note whose second line has number signs of all kinds on it. -/
def signedNote : List Text :=
  ["```".toList, "#a".toList, "```".toList, "#1/ ##b #é-2// x#c\t#3_/#d #".toList]

theorem tags_on_signed_line :
    (occurrencesIn signedNote).filter (·.first == 3)
        = [.on 3 "#é-2".toList, .on 3 "#3_".toList]
      ∧ StartsAt "#1/ ##b #é-2// x#c\t#3_/#d #".toList 8
      ∧ pattern.findAll "#1/ ##b #é-2// x#c\t#3_/#d #".toList
        = ["#é-2//".toList, "#3_/".toList] := by
  have hreads : ReadsLine signedNote 3 := by
    refine ⟨by decide +kernel, by decide +kernel, ?_⟩
    rintro line ⟨⟩
    decide +kernel
  obtain ⟨htags, -, hstarts, -⟩ := tags_on_line rfl hreads
  have hpositions : positions "#1/ ##b #é-2// x#c\t#3_/#d #".toList = [8, 19] := by
    decide +kernel
  refine ⟨?_, (hstarts 8).mp ?_, by decide +kernel⟩
  · rw [htags]
    decide +kernel
  · rw [hpositions]
    exact List.mem_cons_self

end NoteDigest.Note
