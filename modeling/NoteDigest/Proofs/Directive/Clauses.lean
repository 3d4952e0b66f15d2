import NoteDigest.Directive.Query
import NoteDigest.Proofs.Distinct
import NoteDigest.Proofs.Text.Trim
import NoteDigest.Proofs.Text.Words

/-! # Clauses — how a line states what a query asks for

    A clause is a keyword and a value, and a value is a row of tags with blanks around
    them.  The tags of a value are distinct, each is a token, and none holds a character
    that a value may not hold (`tagRow_tagsIn`).  Tags of this kind can be written as a
    value, and are the tags of it (`isValue_joinWith`, `tagsIn_joinWith`).

    A clause that is written adds its tags to a query, whatever the query is
    (`addLine_clause`), and a query never holds other tags than such rows
    (`written_ofSource`). -/

namespace NoteDigest.Directive

variable {c : Char} {content : Text} {kind : Clause} {tag : Tag} {tags : List Tag}

/-! ## Values -/

/-- The characters of values. -/
def isValueChar (c : Char) : Bool :=
  Text.isLetter c || valueMarks.contains c

theorem isValueChar_iff_cases : isValueChar c = true
    ↔ Text.isLetter c = true ∨ c ∈ "0123456789_-/".toList ∨ c = '#' ∨ c = ' ' := by
  have hmarks : valueMarks = "0123456789_-/".toList ++ ['#', ' '] := by decide
  rw [isValueChar, Bool.or_eq_true, List.contains_iff_mem, hmarks, List.mem_append,
    List.mem_cons, List.mem_singleton]

theorem isValue_iff :
    isValue content = true ↔ content ≠ [] ∧ ∀ c ∈ content, isValueChar c = true := by
  rw [isValue, Bool.and_eq_true, List.all_eq_true]
  refine and_congr ?_ Iff.rfl
  cases content <;> simp

theorem newline_notMem_of_isValue (h : isValue content = true) : '\n' ∉ content := by
  intro hmem
  exact absurd ((isValue_iff.mp h).2 '\n' hmem) (by decide)

/-- A blank in front makes no difference to a value, and none to its tags. -/
theorem isValue_cons_blank (hne : content ≠ []) : isValue (' ' :: content) = isValue content := by
  have hblank : isValueChar ' ' = true := by decide
  rw [Bool.eq_iff_iff, isValue_iff, isValue_iff, List.forall_mem_cons]
  simp [hne, hblank]

theorem tagsIn_cons_blank (content : Text) : tagsIn (' ' :: content) = tagsIn content := by
  rw [tagsIn, tagsIn, Text.words_cons_blank (by decide)]

/-! ## Rows of tags -/

/-- Tags that can stand in a value: they are distinct tokens of characters that a value may
    hold, and no blanks part them. -/
structure TagRow (tags : List Tag) : Prop where
  nodup : tags.Nodup
  token : ∀ tag ∈ tags, Tag.isToken tag = true
  chars : ∀ tag ∈ tags, ∀ c ∈ tag, isValueChar c = true ∧ Text.isBlank c = false

theorem tagRow_nil : TagRow [] :=
  ⟨List.nodup_nil, List.forall_mem_nil _, List.forall_mem_nil _⟩

theorem ne_nil_of_isToken (h : Tag.isToken tag = true) : tag ≠ [] := by
  rintro rfl
  cases h

/-- **THE TAGS OF A VALUE** can stand in a value. -/
theorem tagRow_tagsIn (h : isValue content = true) : TagRow (tagsIn content) := by
  have hmem : ∀ tag ∈ tagsIn content, tag ∈ Text.words content ∧ Tag.isToken tag = true :=
    fun tag htag => List.mem_filter.mp (List.mem_eraseDups.mp htag)
  refine ⟨nodup_eraseDups _, fun tag htag => (hmem tag htag).2, ?_⟩
  intro tag htag c hc
  obtain ⟨hcontent, hblank⟩ := (Text.of_mem_words (hmem tag htag).1).2 c hc
  exact ⟨(isValue_iff.mp h).2 c hcontent, hblank⟩

/-- Tags written with blanks between them are a value, if there is one. -/
theorem isValue_joinWith (h : TagRow tags) (hne : tags ≠ []) :
    isValue (Text.joinWith [' '] tags) = true := by
  refine isValue_iff.mpr ⟨?_, ?_⟩
  · obtain ⟨tag, rest, rfl⟩ := List.exists_cons_of_ne_nil hne
    have htag := ne_nil_of_isToken (h.token tag List.mem_cons_self)
    cases rest with
    | nil => exact htag
    | cons next others => simp [Text.joinWith]
  · intro c hc
    rcases Text.mem_joinWith hc with hblank | ⟨tag, htag, hmem⟩
    · obtain rfl : c = ' ' := List.mem_singleton.mp hblank
      decide
    · exact (h.chars tag htag c hmem).1

/-- **TAGS WRITTEN AS A VALUE** are the tags of the value. -/
theorem tagsIn_joinWith (h : TagRow tags) : tagsIn (Text.joinWith [' '] tags) = tags := by
  have hwords : Text.words (Text.joinWith [' '] tags) = tags := by
    refine Text.words_joinWith fun tag htag => ?_
    exact ⟨ne_nil_of_isToken (h.token tag htag), fun c hc => (h.chars tag htag c hc).2⟩
  rw [tagsIn, hwords, List.filter_eq_self.mpr h.token, eraseDups_of_nodup h.nodup]

/-! ## Lines -/

theorem dropWhile_keyword (kind : Clause) (content : Text) :
    (kind.keyword ++ content).dropWhile Text.isBlank = kind.keyword ++ content := by
  cases kind <;> rfl

/-- A line starts with one keyword only. -/
theorem after?_keyword (kind other : Clause) (content : Text) :
    Text.after? other.keyword (kind.keyword ++ content)
      = if other = kind then some content else none := by
  cases kind <;> cases other <;> rfl

/-- **A KEYWORD AND A VALUE** are a clause; with anything else behind the keyword the line
    does not count. -/
theorem clause?_keyword (kind : Clause) (content : Text) :
    clause? (kind.keyword ++ content)
      = if isValue content then some (kind, tagsIn content) else none := by
  rw [clause?, dropWhile_keyword]
  -- the keywords are tried in turn, and only the clause's own is found
  by_cases hvalue : isValue content = true
  · cases kind <;> simp [Clause.all, after?_keyword, hvalue]
  · cases kind <;> simp [Clause.all, after?_keyword, hvalue]

/-- A clause is a keyword behind blanks, and its tags are those of the value that follows. -/
theorem exists_of_clause?_eq_some {row : Text} (h : clause? row = some (kind, tags)) :
    ∃ content, row.dropWhile Text.isBlank = kind.keyword ++ content
      ∧ isValue content = true ∧ tags = tagsIn content := by
  rw [clause?] at h
  obtain ⟨other, -, hother⟩ := List.exists_of_findSome?_eq_some h
  split at hother
  · rename_i content hafter
    split at hother
    · rename_i hvalue
      have hfound := Option.some.inj hother
      obtain rfl : other = kind := congrArg Prod.fst hfound
      exact ⟨content, Text.after?_eq_some_iff.mp hafter, hvalue, (congrArg Prod.snd hfound).symm⟩
    · cases hother
  · cases hother

/-- The line of a clause: its keyword, a blank, and its value. -/
def Clause.line (kind : Clause) (value : Text) : Text :=
  kind.keyword ++ ' ' :: value

theorem Clause.newline_notMem_line {value : Text} (h : '\n' ∉ value) (kind : Clause) :
    '\n' ∉ kind.line value := by
  intro hmem
  rcases List.mem_append.mp hmem with hkeyword | hrest
  · revert hkeyword
    cases kind <;> decide
  · rcases List.mem_cons.mp hrest with hblank | hvalue
    · exact absurd hblank (by decide)
    · exact h hvalue

/-! ## Queries -/

/-- **A LINE WITH A KEYWORD** puts the tags of its value into a query; if it has no value
    behind the keyword, the query stays as it is. -/
theorem addLine_line {value : Text} (hne : value ≠ []) (query : Query) (kind : Clause) :
    query.addLine (kind.line value)
      = if isValue value then query.put kind (tagsIn value) else query := by
  rw [Query.addLine, Clause.line, clause?_keyword, isValue_cons_blank hne, tagsIn_cons_blank]
  by_cases hvalue : isValue value = true
  · rw [if_pos hvalue, if_pos hvalue]
  · rw [if_neg hvalue, if_neg hvalue]

/-- **A CLAUSE** puts its tags into a query. -/
theorem addLine_clause {value : Text} (h : isValue value = true) (query : Query)
    (kind : Clause) : query.addLine (kind.line value) = query.put kind (tagsIn value) := by
  rw [addLine_line (isValue_iff.mp h).1, if_pos h]

/-- All tags of a query can be written in values. -/
structure Written (query : Query) : Prop where
  anyOf : TagRow query.anyOf
  allOf : TagRow query.allOf
  noneOf : TagRow query.noneOf

theorem Written.put {query : Query} (h : Written query) (kind : Clause) (htags : TagRow tags) :
    Written (query.put kind tags) := by
  cases kind with
  | anyOf => exact ⟨htags, h.allOf, h.noneOf⟩
  | allOf => exact ⟨h.anyOf, htags, h.noneOf⟩
  | noneOf => exact ⟨h.anyOf, h.allOf, htags⟩

/-- **ONE LINE**, be it a clause or not, keeps the tags of a query writable. -/
theorem Written.addLine {query : Query} (h : Written query) (line : Text) :
    Written (query.addLine line) := by
  rw [Query.addLine]
  split
  · rename_i kind tags hclause
    obtain ⟨content, -, hvalue, rfl⟩ := exists_of_clause?_eq_some hclause
    exact h.put kind (tagRow_tagsIn hvalue)
  · exact h

/-- **ALL LINES**: the query of a source has tags that can be written. -/
theorem written_ofSource (source : Text) : Written (Query.ofSource source) := by
  have hlines : ∀ (lines : List Text) (query : Query), Written query →
      Written (lines.foldl Query.addLine query) := by
    intro lines
    induction lines with
    | nil => intro query h; exact h
    | cons line rest ih =>
        intro query h
        exact ih (query.addLine line) (h.addLine line)
  exact hlines (Text.lines source) {} ⟨tagRow_nil, tagRow_nil, tagRow_nil⟩

end NoteDigest.Directive

namespace NoteDigest.Query

open Directive

/-- The tags of one kind of clause. -/
def tags (query : Query) : Clause → List Tag
  | .anyOf => query.anyOf
  | .allOf => query.allOf
  | .noneOf => query.noneOf

theorem tags_put (query : Query) (kind : Clause) (tags : List Tag) (other : Clause) :
    (query.put kind tags).tags other = if other = kind then tags else query.tags other := by
  cases kind <;> cases other <;> rfl

end NoteDigest.Query
