import NoteDigest.Proofs.Note.FrontMatter
import NoteDigest.Proofs.Selection
import NoteDigest.Proofs.Tag.Hierarchy
import NoteDigest.Proofs.Tag.Inline

/-! # Asking — whether the tag that a directive asks for finds itself in a note

    A directive keeps exactly the authorable tags (`kept_iff_authorable`).  In a note the row
    behind the number sign of such a tag is read to its end, for it is made of tag characters
    and starts with one that makes a name; but the slashes at the end are dropped.  So the note
    that holds the tag and nothing else has one occurrence, of the tag without these slashes
    (`inline_of_authorable`).

    The directive drops no slashes.  A tag that ends with one does not cover what is found of it
    (`covers_bare_iff`); any other covers what is found wherever it stands by itself, or with
    further names behind a slash (`exists_covered_of_stands`). -/

namespace NoteDigest

namespace Tag

open Directive

variable {c : Char} {tag : Tag} {line row after : Text}

/-! ## The tags that are kept -/

theorem Authorable.hasShape (h : Authorable tag) : HasShape tag := by
  obtain ⟨c, rest, rfl, hletter, hrest⟩ := h
  have hmarks : "0123456789_-/".toList.all isTagChar = true := by decide
  have hletters : ∀ d, Text.isLetter d = true → isTagChar d = true :=
    fun d hd => isTagChar_of_isNameChar (isNameChar_of_isLetter hd)
  refine ⟨c, rest, rfl, List.forall_mem_cons.mpr ⟨hletters c hletter, fun d hd => ?_⟩⟩
  exact (hrest d hd).elim (hletters d) (List.all_eq_true.mp hmarks d)

/-- **THE CLAUSE** for an authorable tag asks for this tag. -/
theorem ofSource_clause (h : Authorable tag) :
    Query.ofSource ("tags: ".toList ++ tag) = { anyOf := [tag] } :=
  ofSource_of_authorable h.hasShape h

theorem exists_of_isToken (h : isToken tag = true) :
    ∃ c rest, tag = '#' :: c :: rest ∧ Text.isLetter c = true ∧ '#' ∉ rest := by
  rw [isToken.eq_def] at h
  split at h
  · rename_i c rest
    rw [Bool.and_eq_true, Bool.not_eq_true', List.contains_eq_mem, decide_eq_false_iff_not] at h
    exact ⟨c, rest, rfl, h⟩
  · cases h

/-- A tag that can stand in a value is authorable: it holds no blank and no further number
    sign. -/
theorem authorable_of_mem {tags : List Tag} (h : TagRow tags) (htag : tag ∈ tags) :
    Authorable tag := by
  obtain ⟨c, rest, rfl, hletter, hsign⟩ := exists_of_isToken (h.token tag htag)
  refine ⟨c, rest, rfl, hletter, fun d hd => ?_⟩
  obtain ⟨hvalue, hblank⟩ :=
    h.chars _ htag d (List.mem_cons_of_mem '#' (List.mem_cons_of_mem c hd))
  rcases isValueChar_iff_cases.mp hvalue with hletter | hmark | rfl | rfl
  · exact .inl hletter
  · exact .inr hmark
  · exact absurd hd hsign
  · revert hblank
    decide

/-- **WHAT IS KEPT** of a directive, by clauses of any kind, are the authorable tags. -/
theorem kept_iff_authorable :
    (∃ source kind, tag ∈ (Query.ofSource source).tags kind) ↔ Authorable tag := by
  constructor
  · rintro ⟨source, kind, htag⟩
    have hwritten := written_ofSource source
    cases kind with
    | anyOf => exact authorable_of_mem hwritten.anyOf htag
    | allOf => exact authorable_of_mem hwritten.allOf htag
    | noneOf => exact authorable_of_mem hwritten.noneOf htag
  · intro h
    refine ⟨"tags: ".toList ++ tag, .anyOf, ?_⟩
    rw [ofSource_clause h]
    exact List.mem_singleton.mpr rfl

/-! ## The tag that is found -/

/-- A tag without the slashes at its end. -/
def bare (tag : Tag) : Tag :=
  Text.dropEndWhile (· == '/') tag

theorem bare_cons (row : Text) : bare ('#' :: row) = '#' :: Text.dropEndWhile (· == '/') row := by
  rw [bare, Text.dropEndWhile]
  cases Text.dropEndWhile (· == '/') row <;> rfl

theorem beq_slash_of_getLast? (h : tag.getLast? ≠ some '/') :
    ∀ c ∈ tag.getLast?, (c == '/') = false := by
  intro c hc
  refine beq_false_of_ne ?_
  rintro rfl
  exact h hc

/-- **ONLY A TAG WITHOUT A SLASH** at its end covers what is found of it. -/
theorem covers_bare_iff : tag.covers (bare tag) = true ↔ tag.getLast? ≠ some '/' := by
  constructor
  · intro hcovers hlast
    have hprefix : bare tag <+: tag := Text.dropEndWhile_isPrefix _ tag
    have hlonger : tag.length ≤ (bare tag).length := by
      rcases covers_iff.mp hcovers with heq | hbelow
      · rw [heq]
      · exact ((List.prefix_append tag ['/']).trans hbelow).length_le
    have hbare : bare tag = tag := hprefix.eq_of_length_le hlonger
    rw [← hbare] at hlast
    exact getLast?_dropEndWhile_ne_slash tag hlast
  · intro hlast
    have hbare : bare tag = tag := Text.dropEndWhile_of_getLast? (beq_slash_of_getLast? hlast)
    rw [hbare]
    exact covers_refl tag

/-- At a number sign in front of a row with a name in it, the row and what continues it is
    read. -/
theorem atSign?_append (hrow : ∀ c ∈ row, isTagChar c = true)
    (hname : ∃ c ∈ row, isNameChar c = true) (after : Text) :
    atSign? (row ++ after) = some (bare ('#' :: (row ++ after.takeWhile isTagChar))) := by
  obtain ⟨c, hc, hcname⟩ := hname
  have hrun : (row ++ after).takeWhile isTagChar = row ++ after.takeWhile isTagChar :=
    List.takeWhile_append_of_pos hrow
  have hany : (row ++ after.takeWhile isTagChar).any isNameChar = true :=
    List.any_eq_true.mpr ⟨c, List.mem_append_left _ hc, hcname⟩
  rw [atSign?, hrun, if_pos hany, bare_cons]

/-- The row of an authorable tag. -/
theorem Authorable.exists_row (h : Authorable tag) :
    ∃ row, tag = '#' :: row ∧ (∀ c ∈ row, isTagChar c = true)
      ∧ ∃ c ∈ row, isNameChar c = true := by
  obtain ⟨c, rest, htag, hrow⟩ := h.hasShape
  obtain ⟨d, _, htag', hletter, -⟩ := h
  refine ⟨c :: rest, htag, hrow, c, List.mem_cons_self, isNameChar_of_isLetter ?_⟩
  rw [htag] at htag'
  cases htag'
  exact hletter

/-- **ON A LINE OF ITS OWN** an authorable tag gives one tag. -/
theorem inline_of_authorable (h : Authorable tag) : inline tag = [bare tag] := by
  obtain ⟨row, rfl, hrow, hname⟩ := h.exists_row
  have hnone : inlineFrom (Text.isBlank '#') row = [] := by
    refine List.eq_nil_iff_forall_not_mem.mpr fun other hother => ?_
    obtain ⟨before, rest, rfl, -, -⟩ := mem_inlineFrom_iff.mp hother
    have hsign := hrow '#' (List.mem_append_right before List.mem_cons_self)
    rw [isTagChar_sign] at hsign
    cases hsign
  have hsign := atSign?_append hrow hname []
  rw [List.append_nil, List.takeWhile_nil, List.append_nil] at hsign
  rw [inline, inlineFrom, hnone, hsign]
  rfl

/-! ## Where it stands -/

/-- The tag stands on a line at its start or behind a blank, and what follows it does not
    continue its last name. -/
def StandsWhole (tag : Tag) (line : Text) : Prop :=
  ∃ before after, line = before ++ tag ++ after
    ∧ (∀ c ∈ before.getLast?, Text.isBlank c = true)
    ∧ ∀ c ∈ after.head?, isTagChar c = true → c = '/'

/-- **WHEREVER IT STANDS** a tag with no slash at its end covers the tag that is found. -/
theorem exists_covered_of_stands (h : Authorable tag) (hlast : tag.getLast? ≠ some '/')
    (hstands : StandsWhole tag line) : ∃ found ∈ inline line, tag.covers found = true := by
  obtain ⟨before, after, rfl, hbefore, hafter⟩ := hstands
  obtain ⟨row, rfl, hrow, hname⟩ := h.exists_row
  have hfound := atSign?_append hrow hname after
  have hopens : opensBehind true before = true := by
    rw [opensBehind]
    cases hend : before.getLast? with
    | none => rfl
    | some c => exact hbefore c hend
  refine ⟨_, mem_inlineFrom_iff.mpr ⟨before, row ++ after, ?_, hopens, hfound⟩, covers_iff.mpr ?_⟩
  · rw [List.append_assoc, List.cons_append]
  · have hkept : '#' :: row <+: bare ('#' :: (row ++ after.takeWhile isTagChar)) := by
      refine Text.isPrefix_dropEndWhile (List.prefix_append ('#' :: row) _) fun c hc => ?_
      refine beq_false_of_ne ?_
      rintro rfl
      exact hlast hc
    -- what is read behind the tag starts with a slash, if it is anything
    obtain ⟨more, hmore⟩ := hkept
    have hread : more <+: after.takeWhile isTagChar := by
      have hprefix : bare ('#' :: (row ++ after.takeWhile isTagChar))
          <+: '#' :: row ++ after.takeWhile isTagChar := Text.dropEndWhile_isPrefix _ _
      rw [← hmore] at hprefix
      exact (List.prefix_append_right_inj _).mp hprefix
    rw [← hmore]
    cases more with
    | nil => exact .inl (List.append_nil _)
    | cons d others =>
        obtain ⟨tail, htail⟩ := hread
        have hhead : after.head? = some d := by
          rw [← List.takeWhile_append_dropWhile (p := isTagChar) (l := after), ← htail]
          rfl
        have hd : isTagChar d = true := by
          refine List.all_eq_true.mp (List.all_takeWhile (l := after)) d ?_
          rw [← htail]
          exact List.mem_cons_self
        obtain rfl := hafter d hhead hd
        exact .inr ⟨others, by simp⟩

end Tag

namespace Note

open Tag

variable {tag : Tag} {line : Text} {lines : List Text} {number : Nat} {found : Metadata}

/-! ## Notes that are asked for -/

/-- A single line is never front matter. -/
theorem metadataOf_singleton (line : Text) :
    metadataOf [line] = .ok ⟨occurrencesIn [line], false⟩ := by
  have hfront : frontMatterLines? [line] = none := by
    rw [frontMatterLines?]
    split <;> rfl
  rw [metadataOf, properties, hfront]
  rfl

theorem occurrencesIn_singleton (hplain : Fence.ofLine? line = none) :
    occurrencesIn [line] = lineOccurrences 0 line := by
  have hstart : bodyStart [line] = 0 := by
    rw [bodyStart]
    split <;> rfl
  rw [occurrencesIn, hstart, List.drop_zero, occurrencesFrom_cons, if_pos ⟨rfl, hplain⟩]
  exact List.append_nil _

/-- **THE NOTE OF A TAG ALONE** has one occurrence, of the tag without the slashes at its
    end. -/
theorem metadataOf_tag (h : Authorable tag) :
    metadataOf [tag] = .ok ⟨[Occurrence.on 0 (bare tag)], false⟩ := by
  have hplain : Fence.ofLine? tag = none := by
    obtain ⟨c, rest, rfl, -⟩ := h
    rfl
  rw [metadataOf_singleton, occurrencesIn_singleton hplain, lineOccurrences,
    inline_of_authorable h]
  rfl

/-- **A NOTE WITH THE TAG** on a line that is read has an occurrence that the tag covers, if no
    slash is at its end. -/
theorem exists_covered_of_readsLine (h : Authorable tag) (hlast : tag.getLast? ≠ some '/')
    (hfound : metadataOf lines = .ok found) (hline : lines[number]? = some line)
    (hreads : ReadsLine lines number) (hstands : StandsWhole tag line) :
    ∃ o ∈ found.occurrences, tag.covers o.tag = true := by
  obtain ⟨other, hother, hcovers⟩ := exists_covered_of_stands h hlast hstands
  rw [occurrences_of_metadataOf hfound]
  refine ⟨Occurrence.on number other, mem_occurrencesIn_iff.mpr ⟨number, line, hline, hreads, ?_⟩,
    hcovers⟩
  exact List.mem_map.mpr ⟨other, hother, rfl⟩

/-- **A TAG THAT A DIRECTIVE KEEPS**, in a clause of any kind, in a note:

    * the note that holds this tag and nothing else has one occurrence, of the tag without the
      slashes at its end, and the tag covers it exactly when it has no slash there;
    * the clause for the tag asks for it alone.  It selects that note exactly when the tag has
      no slash at its end, and then it also selects each note that has not opted out and has the
      tag on a line that is read, at the start of the line or behind a blank, with nothing
      behind it or what does not continue its last name. -/
theorem kept_tag_in_note {source : Text} {kind : Directive.Clause}
    (h : tag ∈ (Query.ofSource source).tags kind) :
    metadataOf [tag] = .ok ⟨[Occurrence.on 0 (bare tag)], false⟩
      ∧ (tag.covers (bare tag) = true ↔ tag.getLast? ≠ some '/')
      ∧ Query.ofSource ("tags: ".toList ++ tag) = { anyOf := [tag] }
      ∧ (∀ ref, (Query.ofSource ("tags: ".toList ++ tag)).selects
            (Note.stub ref ⟨[Occurrence.on 0 (bare tag)], false⟩) = true
          ↔ tag.getLast? ≠ some '/')
      ∧ (tag.getLast? ≠ some '/' → ∀ lines found, metadataOf lines = .ok found →
          found.optedOut = false → ∀ number line, lines[number]? = some line →
            ReadsLine lines number → StandsWhole tag line →
              ∀ ref, (Query.ofSource ("tags: ".toList ++ tag)).selects (Note.stub ref found)
                = true) := by
  have hauthorable : Authorable tag := kept_iff_authorable.mp ⟨source, kind, h⟩
  have hsource := ofSource_clause hauthorable
  refine ⟨metadataOf_tag hauthorable, covers_bare_iff, hsource, fun ref => ?_, ?_⟩
  · rw [hsource, Query.selects_one_iff, ← covers_bare_iff]
    constructor
    · rintro ⟨-, o, ho, hcovers⟩
      obtain rfl := List.mem_singleton.mp ho
      exact hcovers
    · intro hcovers
      exact ⟨rfl, _, List.mem_singleton.mpr rfl, hcovers⟩
  · intro hlast lines found hfound hin number line hline hreads hstands ref
    rw [hsource, Query.selects_one_iff]
    exact ⟨hin, exists_covered_of_readsLine hauthorable hlast hfound hline hreads hstands⟩

/-- A note with a tag in a fenced block, and with a descendant of the tag behind the block. -/
def fencedNote : List Text :=
  ["~~~".toList, "#é/1-b".toList, "~~~".toList, "see\t#é/1-b/c.".toList]

theorem kept_tag_in_fencedNote :
    "#é/1-b".toList ∈ (Query.ofSource "exclude: #q #é/1-b x".toList).tags .noneOf
      ∧ metadataOf ["#é/1-b".toList] = .ok ⟨[.on 0 "#é/1-b".toList], false⟩
      ∧ metadataOf fencedNote = .ok ⟨[.on 3 "#é/1-b/c".toList], false⟩
      ∧ ∀ ref, (Query.ofSource "tags: #é/1-b".toList).selects
          (Note.stub ref ⟨[.on 3 "#é/1-b/c".toList], false⟩) = true := by
  have hkept : "#é/1-b".toList ∈ (Query.ofSource "exclude: #q #é/1-b x".toList).tags .noneOf := by
    decide +kernel
  have hfound : metadataOf fencedNote = .ok ⟨[.on 3 "#é/1-b/c".toList], false⟩ := by
    decide +kernel
  have hreads : ReadsLine fencedNote 3 := by
    refine ⟨by decide +kernel, by decide +kernel, ?_⟩
    rintro line ⟨⟩
    decide +kernel
  have hstands : StandsWhole "#é/1-b".toList "see\t#é/1-b/c.".toList := by
    refine ⟨"see\t".toList, "/c.".toList, by decide, ?_, ?_⟩
    · rintro _ ⟨⟩
      decide
    · rintro _ ⟨⟩ -
      rfl
  obtain ⟨hsole, -, -, -, hselects⟩ := kept_tag_in_note hkept
  refine ⟨hkept, ?_, hfound, ?_⟩
  · rw [hsole]
    decide +kernel
  · exact hselects (by decide) fencedNote _ hfound rfl 3 _ rfl hreads hstands

/-- **THE EXCEPTION**: a directive keeps a tag with a slash at its end as it is written, and a
    note that holds just this tag is not found by it. -/
theorem slashed_tag_not_found :
    ("#a/".toList ∈ (Query.ofSource "tags: #a/".toList).tags .anyOf
      ∧ metadataOf ["#a/".toList] = .ok ⟨[.on 0 "#a".toList], false⟩
      ∧ ∀ ref, (Query.ofSource "tags: #a/".toList).selects
          (Note.stub ref ⟨[.on 0 "#a".toList], false⟩) = false)
    ∧ ¬ ∀ (source : Text) (kind : Directive.Clause) (tag : Tag),
        tag ∈ (Query.ofSource source).tags kind →
          ∃ o, occurrencesIn [tag] = [o] ∧ tag.covers o.tag = true := by
  have hsource : Query.ofSource "tags: #a/".toList = { anyOf := ["#a/".toList] } := by
    decide +kernel
  have hkept : "#a/".toList ∈ (Query.ofSource "tags: #a/".toList).tags .anyOf := by
    rw [hsource]
    exact List.mem_singleton.mpr rfl
  have hfound : metadataOf ["#a/".toList] = .ok ⟨[.on 0 "#a".toList], false⟩ := by decide +kernel
  refine ⟨⟨hkept, hfound, fun ref => ?_⟩, fun hall => ?_⟩
  · rw [hsource]
    rfl
  · obtain ⟨o, hsole, hcovers⟩ := hall _ .anyOf _ hkept
    have hbare : occurrencesIn ["#a/".toList] = [.on 0 "#a".toList] :=
      (occurrences_of_metadataOf hfound).symm
    obtain rfl := List.singleton_inj.mp (hbare.symm.trans hsole)
    revert hcovers
    decide

end Note
end NoteDigest
