import NoteDigest.Proofs.Directive.Clauses
import NoteDigest.Proofs.Text.Lines

/-! # Overriding — which line of a source counts

    A line states a value for a kind of clause if behind blanks it has the keyword of that
    kind, and behind the keyword letters, digits and marks (`States`).  These are the lines
    that are clauses (`clause?_eq_some_iff`), and of all that state something for one kind the
    last one counts (`tags_ofSource`).

    So a source that follows another overrides it, kind by kind, where it states something, be
    it no tag at all, and leaves it alone where it does not (`later_source_overrides`). -/

namespace NoteDigest.Directive

open Query

variable {line value : Text} {kind : Clause} {tags : List Tag}

/-! ## Lines that state something -/

/-- **A LINE STATES A VALUE**: behind blanks, if there are any, stands the keyword, and behind
    it the value, which has some characters, and none but letters, digits and marks. -/
structure States (line : Text) (kind : Clause) (value : Text) : Prop where
  line : ∃ blanks, (∀ c ∈ blanks, Text.isBlank c = true) ∧ line = blanks ++ kind.keyword ++ value
  some : value ≠ []
  chars : ∀ c ∈ value,
    Text.isLetter c = true ∨ c ∈ "0123456789".toList ∨ c ∈ ['_', '-', '/', '#', ' ']

theorem isValue_iff_chars : isValue value = true ↔ value ≠ [] ∧ ∀ c ∈ value,
    Text.isLetter c = true ∨ c ∈ "0123456789".toList ∨ c ∈ ['_', '-', '/', '#', ' '] := by
  have hmarks : valueMarks = "0123456789".toList ++ ['_', '-', '/', '#', ' '] := by decide
  simp only [isValue_iff, isValueChar, hmarks, Bool.or_eq_true, List.contains_iff_mem,
    List.mem_append]

theorem states_append {blanks : Text} (hblanks : blanks.all Text.isBlank = true)
    (hvalue : isValue value = true) : States (blanks ++ kind.keyword ++ value) kind value := by
  obtain ⟨hne, hchars⟩ := isValue_iff_chars.mp hvalue
  exact ⟨⟨blanks, List.all_eq_true.mp hblanks, rfl⟩, hne, hchars⟩

/-- Blanks in front of a line make no difference. -/
theorem clause?_append {blanks : Text} (h : ∀ c ∈ blanks, Text.isBlank c = true) (text : Text) :
    clause? (blanks ++ text) = clause? text := by
  rw [clause?, clause?, List.dropWhile_append_of_pos h]

/-- **THE LINES THAT ARE CLAUSES** are those that state a value, and their tags are those of
    the value. -/
theorem clause?_eq_some_iff :
    clause? line = some (kind, tags) ↔ ∃ value, States line kind value ∧ tags = tagsIn value := by
  constructor
  · intro h
    obtain ⟨content, hbody, hvalue, rfl⟩ := exists_of_clause?_eq_some h
    have hline : line = line.takeWhile Text.isBlank ++ kind.keyword ++ content := by
      rw [List.append_assoc, ← hbody, List.takeWhile_append_dropWhile]
    refine ⟨content, ?_, rfl⟩
    rw [hline]
    exact states_append List.all_takeWhile hvalue
  · rintro ⟨value, ⟨⟨blanks, hblanks, rfl⟩, hne, hchars⟩, rfl⟩
    have hvalue := isValue_iff_chars.mpr ⟨hne, hchars⟩
    rw [List.append_assoc, clause?_append hblanks, clause?_keyword, if_pos hvalue]

theorem clause?_eq_none_iff : clause? line = none ↔ ∀ kind value, ¬ States line kind value := by
  rw [Option.eq_none_iff_forall_ne_some]
  constructor
  · intro h kind value hstates
    exact h (kind, tagsIn value) (clause?_eq_some_iff.mpr ⟨value, hstates, rfl⟩)
  · rintro h ⟨kind, tags⟩ hclause
    obtain ⟨value, hstates, -⟩ := clause?_eq_some_iff.mp hclause
    exact h kind value hstates

/-- The tags that a line states for one kind of clause, if it states any value for it. -/
def stated? (kind : Clause) (line : Text) : Option (List Tag) :=
  (clause? line).bind fun (found, tags) => if found = kind then some tags else none

theorem stated?_eq_some_iff :
    stated? kind line = some tags ↔ ∃ value, States line kind value ∧ tags = tagsIn value := by
  rw [← clause?_eq_some_iff, stated?]
  cases clause? line with
  | none => exact iff_of_false nofun nofun
  | some clause =>
      obtain ⟨found, tags'⟩ := clause
      by_cases hkind : found = kind
      · subst hkind
        simp
      · simp [hkind]

theorem stated?_eq_none_iff : stated? kind line = none ↔ ∀ value, ¬ States line kind value := by
  rw [Option.eq_none_iff_forall_ne_some]
  constructor
  · intro h value hstates
    exact h (tagsIn value) (stated?_eq_some_iff.mpr ⟨value, hstates, rfl⟩)
  · intro h tags hstated
    obtain ⟨value, hstates, -⟩ := stated?_eq_some_iff.mp hstated
    exact h value hstates

theorem stated?_of_states (h : States line kind value) :
    stated? kind line = some (tagsIn value) :=
  stated?_eq_some_iff.mpr ⟨value, h, rfl⟩

theorem filterMap_stated?_eq_nil {lines : List Text}
    (h : ∀ line ∈ lines, ∀ value, ¬ States line kind value) :
    lines.filterMap (stated? kind) = [] :=
  List.filterMap_eq_nil_iff.mpr fun line hline => stated?_eq_none_iff.mpr (h line hline)

/-- No tags are stated by a value without tokens. -/
theorem tagsIn_eq_nil (h : ∀ word ∈ Text.words value, Tag.isToken word = false) :
    tagsIn value = [] := by
  have hnone : (Text.words value).filter Tag.isToken = [] :=
    List.filter_eq_nil_iff.mpr fun word hword => by simp [h word hword]
  rw [tagsIn, hnone]
  rfl

/-! ## The last line that counts -/

/-- **ONE LINE** replaces the tags that it states, and leaves the others. -/
theorem tags_addLine (query : Query) (line : Text) (kind : Clause) :
    (query.addLine line).tags kind = (stated? kind line).getD (query.tags kind) := by
  rw [addLine, stated?]
  cases clause? line with
  | none => rfl
  | some clause =>
      obtain ⟨found, tags⟩ := clause
      show (query.put found tags).tags kind = (if found = kind then some tags else none).getD _
      rw [tags_put]
      by_cases hkind : found = kind
      · rw [if_pos hkind, if_pos hkind.symm]
        rfl
      · rw [if_neg hkind, if_neg (Ne.symm hkind)]
        rfl

/-- **ALL LINES**: by induction on them, the last one that states something counts. -/
theorem tags_foldl_addLine (lines : List Text) (kind : Clause) (query : Query) :
    (lines.foldl addLine query).tags kind
      = (lines.filterMap (stated? kind)).getLast?.getD (query.tags kind) := by
  induction lines generalizing query with
  | nil => rfl
  | cons line rest ih =>
      rw [List.foldl_cons, ih, tags_addLine]
      cases hline : stated? kind line with
      | none => rw [List.filterMap_cons_none hline]; rfl
      | some tags => rw [List.filterMap_cons_some hline, List.getLast?_cons]; rfl

theorem tags_ofSource (source : Text) (kind : Clause) :
    (ofSource source).tags kind
      = ((Text.lines source).filterMap (stated? kind)).getLast?.getD [] := by
  have hnothing : ({} : Query).tags kind = [] := by
    cases kind <;> rfl
  rw [ofSource, tags_foldl_addLine, hnothing]

/-- **A SOURCE BEHIND ANOTHER** goes over what that has stated. -/
theorem tags_ofSource_append (first second : Text) (kind : Clause) :
    (ofSource (first ++ '\n' :: second)).tags kind
      = ((Text.lines second).filterMap (stated? kind)).getLast?.getD
          ((ofSource first).tags kind) := by
  rw [ofSource, Text.lines_append, List.foldl_append, tags_foldl_addLine]
  rfl

/-- The source that rows are glued to is read row by row. -/
theorem ofSource_unlines (rows : List Text) :
    ofSource (Text.unlines rows) = (rows.flatMap Text.lines).foldl addLine {} := by
  cases rows with
  | nil => decide
  | cons row others => rw [ofSource, Text.lines_unlines (List.cons_ne_nil row others)]

/-- **OVERRIDING**:

    * of two sources, one behind the other, the second decides on the tags of a kind of clause
      if one of its lines states a value for that kind, and the first does if none states any;
    * a line that states no value makes no difference wherever it stands;
    * the last line that states a value for a kind decides on the tags of that kind, which are
      none if no word of the value is a token. -/
theorem later_source_overrides :
    (∀ first second kind,
        ((∃ line ∈ Text.lines second, ∃ value, States line kind value) →
            (ofSource (first ++ '\n' :: second)).tags kind = (ofSource second).tags kind)
          ∧ ((∀ line ∈ Text.lines second, ∀ value, ¬ States line kind value) →
            (ofSource (first ++ '\n' :: second)).tags kind = (ofSource first).tags kind))
      ∧ (∀ before line after, '\n' ∉ line → (∀ kind value, ¬ States line kind value) →
          ofSource (Text.unlines (before ++ line :: after))
            = ofSource (Text.unlines (before ++ after)))
      ∧ ∀ source before line after kind value, Text.lines source = before ++ line :: after →
          States line kind value → (∀ later ∈ after, ∀ other, ¬ States later kind other) →
            (ofSource source).tags kind = tagsIn value
              ∧ ((∀ word ∈ Text.words value, Tag.isToken word = false) →
                (ofSource source).tags kind = []) := by
  refine ⟨fun first second kind => ⟨?_, ?_⟩, ?_, ?_⟩
  · rintro ⟨line, hline, value, hstates⟩
    -- the last of the tags stated is there, whatever it goes over
    have hne := List.ne_nil_of_mem (List.mem_filterMap.mpr ⟨line, hline, stated?_of_states hstates⟩)
    obtain ⟨last, hlast⟩ := Option.isSome_iff_exists.mp (List.getLast?_isSome.mpr hne)
    rw [tags_ofSource_append, tags_ofSource second, hlast]
    rfl
  · intro hnone
    rw [tags_ofSource_append, filterMap_stated?_eq_nil hnone]
    rfl
  · intro before line after hline hnone
    have hidle : ∀ query : Query, query.addLine line = query := fun query => by
      rw [addLine, clause?_eq_none_iff.mpr hnone]
    rw [ofSource_unlines, ofSource_unlines, List.flatMap_append, List.flatMap_append,
      List.flatMap_cons, Text.lines_of_newline_notMem hline, List.singleton_append,
      List.foldl_append, List.foldl_append, List.foldl_cons, hidle]
  · intro source before line after kind value hlines hstates hafter
    have htags : (ofSource source).tags kind = tagsIn value := by
      rw [tags_ofSource, hlines, List.filterMap_append,
        List.filterMap_cons_some (stated?_of_states hstates), filterMap_stated?_eq_nil hafter,
        List.getLast?_concat]
      rfl
    exact ⟨htags, fun hwords => htags.trans (tagsIn_eq_nil hwords)⟩

/-- A source with a clause of each kind. -/
def earlierSource : Text :=
  "tags: #a\ninclude: #b\nexclude: #c".toList

/-- A source that states new tags, no tags and, with a mark that no value holds, nothing. -/
def laterSource : Text :=
  "\ttags:#é/1 x #é/1\ninclude: #d!\nexclude: 7".toList

theorem earlier_overridden :
    States "\ttags:#é/1 x #é/1".toList .anyOf "#é/1 x #é/1".toList
      ∧ (ofSource (earlierSource ++ '\n' :: laterSource)).tags .anyOf = ["#é/1".toList]
      ∧ (ofSource (earlierSource ++ '\n' :: laterSource)).tags .allOf = ["#b".toList]
      ∧ States "exclude: 7".toList .noneOf " 7".toList
      ∧ (ofSource laterSource).tags .noneOf = []
      ∧ ofSource (Text.unlines (["tags: #a".toList] ++ ["include: #d!".toList]))
        = ofSource (Text.unlines (["tags: #a".toList] ++ [])) := by
  obtain ⟨happend, hidle, hlast⟩ := later_source_overrides
  have hlines : Text.lines laterSource
      = ["\ttags:#é/1 x #é/1".toList, "include: #d!".toList, "exclude: 7".toList] := by decide
  have hany : States "\ttags:#é/1 x #é/1".toList .anyOf "#é/1 x #é/1".toList :=
    @states_append _ .anyOf ['\t'] (by decide) (by decide +kernel)
  have hnone : States "exclude: 7".toList .noneOf " 7".toList :=
    @states_append _ .noneOf [] (by decide) (by decide +kernel)
  have hmalformed : ∀ kind value, ¬ States "include: #d!".toList kind value :=
    clause?_eq_none_iff.mp (by decide +kernel)
  have hother : ∀ line ∈ Text.lines laterSource, stated? .allOf line = none := by
    rw [hlines]
    decide +kernel
  refine ⟨hany, ?_, ?_, hnone, ?_, hidle _ _ [] (by decide) hmalformed⟩
  · have hfirst : "\ttags:#é/1 x #é/1".toList ∈ Text.lines laterSource := by
      rw [hlines]
      exact List.mem_cons_self
    rw [(happend earlierSource laterSource .anyOf).1 ⟨_, hfirst, _, hany⟩]
    decide +kernel
  · rw [(happend earlierSource laterSource .allOf).2
      fun line hline => stated?_eq_none_iff.mp (hother line hline)]
    decide +kernel
  · exact (hlast laterSource ["\ttags:#é/1 x #é/1".toList, "include: #d!".toList] _ [] .noneOf _
      hlines hnone (List.forall_mem_nil _)).2 (by decide +kernel)

end NoteDigest.Directive
