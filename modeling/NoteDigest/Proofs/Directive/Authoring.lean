import NoteDigest.Proofs.Directive.Clauses
import NoteDigest.Proofs.Directive.Hosting
import NoteDigest.Proofs.Directive.Pieces

/-! # Authoring — blocks that are written are found and read back

    `render` writes a block, `blocks` finds the blocks of a note, and `Query.ofSource` reads
    what a block asks for.  A block with one clause for the tags wanted, and one for those
    excluded if there are any, has these lines (`lines_render_append`), none of which closes
    it early.

    So a block that is written into a note stands there as it stands alone: the blocks in
    front of it and behind it are those found without it, at their new places, and the
    block asks for the tags it was written for.  The other way round, a query that can be
    written at all is the query of the block written for it (`render_roundtrip`). -/

namespace NoteDigest.Directive

variable {wanted : Text} {unwanted : Option Text} {before : Text}

/-! ## What is written -/

/-- The tags that a block is to exclude, if there are any: the word `None` stands for no
    tags. -/
def excluded? : Option Text → Option Text
  | none => none
  | some tags => if tags.isEmpty || tags == "None".toList then none else some tags

/-- The lines between the fences. -/
def bodyLines (wanted : Text) (unwanted : Option Text) : List Text :=
  Clause.anyOf.line wanted :: ((excluded? unwanted).map Clause.noneOf.line).toList

/-- The lines are the clause for the tags wanted and, if some are excluded, that for them. -/
theorem forall_mem_bodyLines {p : Text → Prop} (hwanted : p (Clause.anyOf.line wanted))
    (hexcluded : ∀ tags, excluded? unwanted = some tags → p (Clause.noneOf.line tags)) :
    ∀ line ∈ bodyLines wanted unwanted, p line := by
  refine List.forall_mem_cons.mpr ⟨hwanted, ?_⟩
  intro line hline
  obtain ⟨tags, htags, rfl⟩ := Option.map_eq_some_iff.mp (Option.mem_toList.mp hline)
  exact hexcluded tags htags

/-- The tags that a block is written with stand on one line each. -/
structure OneLine (wanted : Text) (unwanted : Option Text) : Prop where
  wanted : '\n' ∉ wanted
  unwanted : ∀ tags, excluded? unwanted = some tags → '\n' ∉ tags

/-- The tags that a block is written with are values. -/
structure Writable (wanted : Text) (unwanted : Option Text) : Prop where
  wanted : isValue wanted = true
  unwanted : ∀ tags, excluded? unwanted = some tags → isValue tags = true

theorem Writable.oneLine (h : Writable wanted unwanted) : OneLine wanted unwanted where
  wanted := newline_notMem_of_isValue h.wanted
  unwanted := fun tags htags => newline_notMem_of_isValue (h.unwanted tags htags)

/-- Of tags that are empty, the word `None` or a value, only a value is written. -/
theorem isValue_of_excluded
    (h : ∀ tags, unwanted = some tags → tags = [] ∨ tags = "None".toList ∨ isValue tags = true)
    {tags : Text} (htags : excluded? unwanted = some tags) : isValue tags = true := by
  cases unwanted with
  | none => cases htags
  | some content =>
      rw [excluded?] at htags
      split at htags
      · cases htags
      · rename_i hsome
        obtain rfl : content = tags := Option.some.inj htags
        rcases h content rfl with rfl | rfl | hvalue
        · exact absurd rfl hsome
        · exact absurd rfl hsome
        · exact hvalue

/-- No tags are lost on a value that is left out. -/
theorem tagsIn_excluded (unwanted : Option Text) :
    tagsIn ((excluded? unwanted).getD []) = tagsIn (unwanted.getD []) := by
  cases unwanted with
  | none => rfl
  | some content =>
      rw [excluded?]
      split
      · rename_i hnone
        rcases Bool.or_eq_true_iff.mp hnone with hempty | hword
        · rw [List.isEmpty_iff.mp hempty]
          rfl
        · rw [beq_iff_eq.mp hword]
          decide
      · rfl

/-- The lines of a block, its fences included. -/
def renderedLines (wanted : Text) (unwanted : Option Text) : List Text :=
  (fence ++ language) :: (bodyLines wanted unwanted ++ [fence])

/-- A block is written line by line. -/
theorem render_eq_flatMap (wanted : Text) (unwanted : Option Text) :
    render wanted unwanted = (renderedLines wanted unwanted).flatMap (· ++ ['\n']) := by
  have hwanted : "tags: ".toList ++ wanted = Clause.anyOf.line wanted := rfl
  cases unwanted with
  | none => simp [render, renderedLines, bodyLines, excluded?, ← hwanted]
  | some tags =>
      have hunwanted : "exclude: ".toList ++ tags = Clause.noneOf.line tags := rfl
      by_cases hnone : (tags.isEmpty || tags == "None".toList) = true
      · simp only [render, renderedLines, bodyLines, excluded?, if_pos hnone, ← hwanted]
        simp
      · simp only [render, renderedLines, bodyLines, excluded?, if_neg hnone, ← hwanted]
        simp [← hunwanted]

theorem newline_notMem_bodyLines (h : OneLine wanted unwanted) :
    ∀ line ∈ bodyLines wanted unwanted, '\n' ∉ line := by
  refine forall_mem_bodyLines (Clause.newline_notMem_line h.wanted .anyOf) ?_
  intro tags htags
  exact Clause.newline_notMem_line (h.unwanted tags htags) .noneOf

/-- **THE LINES OF A BLOCK** in front of a text: its fences, its clauses between them, and
    then the lines of the text. -/
theorem lines_render_append (h : OneLine wanted unwanted) (after : Text) :
    Text.lines (render wanted unwanted ++ after)
      = (fence ++ language) :: (bodyLines wanted unwanted ++ fence :: Text.lines after) := by
  have hrows : ∀ row ∈ renderedLines wanted unwanted, '\n' ∉ row := by
    refine List.forall_mem_cons.mpr ⟨by decide, List.forall_mem_append.mpr ⟨?_, ?_⟩⟩
    · exact newline_notMem_bodyLines h
    · exact List.forall_mem_singleton.mpr (by decide)
  rw [render_eq_flatMap, Text.lines_flatMap_append hrows, renderedLines, List.cons_append,
    List.append_assoc, List.singleton_append]

/-! ## Where it is found -/

/-- No line of a clause closes a block. -/
theorem closes_line (kind : Clause) (value : Text) : closes (kind.line value) = false := by
  -- a line that starts with a keyword starts with no fence
  have hplain : Note.Fence.ofLine? (kind.line value) = none := by
    cases kind <;> rfl
  refine Bool.eq_false_iff.mpr fun hcloses => ?_
  rw [ofLine?_of_closes hcloses] at hplain
  cases hplain

theorem closes_bodyLines (wanted : Text) (unwanted : Option Text) :
    ∀ line ∈ bodyLines wanted unwanted, closes line = false :=
  forall_mem_bodyLines (closes_line .anyOf wanted) fun tags _ => closes_line .noneOf tags

/-- **IN FRONT OF A TEXT** the block is taken from it as one piece. -/
theorem pieces_render_append (h : OneLine wanted unwanted) (after : Text) :
    pieces (render wanted unwanted ++ after)
      = .block (fence ++ language) (bodyLines wanted unwanted) fence :: pieces after := by
  rw [pieces, lines_render_append h]
  exact piecesFrom_block (by decide) (by decide) (closes_bodyLines wanted unwanted)
    (Text.lines after)

/-- The block that is written, where it stands alone. -/
def rendered (wanted : Text) (unwanted : Option Text) : Block :=
  ⟨Text.unlines (bodyLines wanted unwanted), 0, (bodyLines wanted unwanted).length + 1⟩

/-- The block ends with its line: what follows it starts on the next. -/
theorem count_newline_render (h : OneLine wanted unwanted) :
    (render wanted unwanted).count '\n' = (bodyLines wanted unwanted).length + 2 := by
  have hlines := lines_render_append h []
  have hcount := Text.length_lines (render wanted unwanted ++ [])
  rw [hlines, List.append_nil, Text.lines_of_newline_notMem List.not_mem_nil, List.length_cons,
    List.length_append, List.length_cons, List.length_cons, List.length_nil] at hcount
  omega

/-- **IN FRONT OF A TEXT** the block is the first one found, and the text's own blocks are
    found below it. -/
theorem blocks_render_append (h : OneLine wanted unwanted) (after : Text) :
    blocks (render wanted unwanted ++ after)
      = rendered wanted unwanted
        :: (blocks after).map (Block.down ((render wanted unwanted).count '\n')) := by
  have hlast : 0 + 1 + (bodyLines wanted unwanted).length
      = (bodyLines wanted unwanted).length + 1 := by omega
  have hnext : 0 + (bodyLines wanted unwanted).length + 2
      = 0 + (render wanted unwanted).count '\n' := by
    rw [count_newline_render h]
    omega
  rw [← blocksOf_pieces, pieces_render_append h, blocksOf, hlast, hnext, blocksOf_add,
    blocksOf_pieces]
  rfl

theorem blocks_render (h : OneLine wanted unwanted) :
    blocks (render wanted unwanted) = [rendered wanted unwanted] := by
  have hblocks := blocks_render_append h []
  rwa [List.append_nil] at hblocks

/-- **BETWEEN TWO TEXTS**, the first of which leaves no block open, the block stands as it
    stands alone. -/
theorem blocks_render_between (hbefore : leavesOpen before = false)
    (h : OneLine wanted unwanted) (after : Text) :
    blocks (before ++ '\n' :: (render wanted unwanted ++ after))
      = blocks before
        ++ (rendered wanted unwanted).down (before.count '\n' + 1)
        :: (blocks after).map
            (Block.down ((before ++ '\n' :: render wanted unwanted).count '\n')) := by
  have hcount : (render wanted unwanted).count '\n' + (before.count '\n' + 1)
      = (before ++ '\n' :: render wanted unwanted).count '\n' := by
    rw [List.count_append, List.count_cons_self]
    omega
  have hdown : Block.down (before.count '\n' + 1)
        ∘ Block.down ((render wanted unwanted).count '\n')
      = Block.down ((before ++ '\n' :: render wanted unwanted).count '\n') := by
    funext b
    rw [Function.comp_apply, Block.down_down, hcount]
  rw [blocks_append hbefore, blocks_render_append h, List.map_cons, List.map_map, hdown]

/-! ## What is read back -/

theorem ofSource_rendered (h : OneLine wanted unwanted) :
    Query.ofSource (rendered wanted unwanted).body
      = (bodyLines wanted unwanted).foldl Query.addLine {} := by
  have hlines : Text.lines (rendered wanted unwanted).body = bodyLines wanted unwanted :=
    Text.lines_unlines_of_newline_notMem (List.cons_ne_nil _ _) (newline_notMem_bodyLines h)
  rw [Query.ofSource, hlines]

/-- **THE BODY** of the block asks for the tags it was written for. -/
theorem ofSource_of_writable (h : Writable wanted unwanted) :
    Query.ofSource (rendered wanted unwanted).body
      = ⟨tagsIn wanted, [], tagsIn (unwanted.getD [])⟩ := by
  rw [ofSource_rendered h.oneLine, bodyLines, List.foldl_cons, addLine_clause h.wanted,
    ← tagsIn_excluded]
  cases hexcluded : excluded? unwanted with
  | none => rfl
  | some tags =>
      show Query.addLine _ (Clause.noneOf.line tags) = _
      rw [addLine_clause (h.unwanted tags hexcluded)]
      rfl

/-- A block that is written with what is no value asks for nothing. -/
theorem ofSource_of_not_isValue (hline : '\n' ∉ wanted) (hne : wanted ≠ [])
    (hvalue : ¬ isValue wanted = true) :
    Query.ofSource (rendered wanted none).body = {} := by
  have hone : OneLine wanted none := ⟨hline, nofun⟩
  rw [ofSource_rendered hone]
  show Query.addLine {} (Clause.anyOf.line wanted) = _
  rw [addLine_line hne, if_neg hvalue]

/-- The tags of a query can be written as values, if some are asked for. -/
theorem writable_of_written {query : Query} (h : Written query) (hany : query.anyOf ≠ []) :
    Writable (Text.joinWith [' '] query.anyOf) (some (Text.joinWith [' '] query.noneOf)) := by
  refine ⟨isValue_joinWith h.anyOf hany, fun tags => isValue_of_excluded ?_⟩
  rintro _ ⟨⟩
  by_cases hnone : query.noneOf = []
  · rw [hnone]
    exact .inl rfl
  · exact .inr (.inr (isValue_joinWith h.noneOf hnone))

/-- **THE ROUND TRIP**: a block written between two texts, the first of which leaves no block
    open, is found there as it is found alone, with the blocks of the first text in front of
    it and those of the second behind it, below all lines that come first; and its body asks
    for the tags that it was written for, where no tags, an empty value and the word `None`
    exclude nothing.  The query of any source that asks for some tags, and for all of none,
    is the query of the block that is written with its tags. -/
theorem render_roundtrip :
    (∀ (before wanted : Text) (unwanted : Option Text) (after : Text),
        leavesOpen before = false → isValue wanted = true →
        (∀ tags, unwanted = some tags →
          tags = [] ∨ tags = "None".toList ∨ isValue tags = true) →
          ∃ block, blocks (render wanted unwanted) = [block]
            ∧ blocks (before ++ '\n' :: (render wanted unwanted ++ after))
              = blocks before ++ block.down (before.count '\n' + 1)
                :: (blocks after).map
                    (Block.down ((before ++ '\n' :: render wanted unwanted).count '\n'))
            ∧ Query.ofSource block.body = ⟨tagsIn wanted, [], tagsIn (unwanted.getD [])⟩
            ∧ (unwanted = none ∨ unwanted = some [] ∨ unwanted = some "None".toList →
                (Query.ofSource block.body).noneOf = []))
      ∧ ∀ source : Text, (Query.ofSource source).anyOf ≠ [] → (Query.ofSource source).allOf = [] →
          ∃ block,
            blocks (render (Text.joinWith [' '] (Query.ofSource source).anyOf)
                (some (Text.joinWith [' '] (Query.ofSource source).noneOf))) = [block]
              ∧ Query.ofSource block.body = Query.ofSource source := by
  constructor
  · intro before wanted unwanted after hbefore hwanted hunwanted
    have h : Writable wanted unwanted := ⟨hwanted, fun tags => isValue_of_excluded hunwanted⟩
    refine ⟨rendered wanted unwanted, blocks_render h.oneLine,
      blocks_render_between hbefore h.oneLine after, ofSource_of_writable h, ?_⟩
    intro hnothing
    rw [ofSource_of_writable h]
    rcases hnothing with rfl | rfl | rfl
    · rfl
    · rfl
    · show tagsIn "None".toList = []
      decide
  · intro source hany hall
    have hwritten : Written (Query.ofSource source) := written_ofSource source
    have h := writable_of_written hwritten hany
    refine ⟨_, blocks_render h.oneLine, ?_⟩
    rw [ofSource_of_writable h, Option.getD_some, tagsIn_joinWith hwritten.anyOf,
      tagsIn_joinWith hwritten.noneOf, ← hall]

/-- A text that ends with a block. -/
def blockAbove : Text :=
  "Start\n\x60\x60\x60add-summary\ntags: #z\n\x60\x60\x60".toList

/-- A text that starts with a block. -/
def blockBelow : Text :=
  "\x60\x60\x60add-summary\ninclude: #q\n\x60\x60\x60\nEnd".toList

/-- A source with a clause that another one replaces, and with a tag that stands twice. -/
def restatedSource : Text :=
  "tags: #old\n  tags: #é #b/c #é\nexclude: #x y".toList

theorem roundtrip_between_blocks :
    (leavesOpen blockAbove = false
      ∧ isValue "#work #work/é #work".toList = true
      ∧ isValue "#draft".toList = true
      ∧ blocks (blockAbove ++ '\n' ::
          (render "#work #work/é #work".toList (some "#draft".toList) ++ blockBelow))
        = [⟨"tags: #z".toList, 1, 3⟩,
            ⟨"tags: #work #work/é #work\nexclude: #draft".toList, 4, 7⟩,
            ⟨"include: #q".toList, 8, 10⟩]
      ∧ Query.ofSource "tags: #work #work/é #work\nexclude: #draft".toList
        = ⟨["#work".toList, "#work/é".toList], [], ["#draft".toList]⟩)
    ∧ Query.ofSource restatedSource
        = ⟨["#é".toList, "#b/c".toList], [], ["#x".toList]⟩
    ∧ ∃ block, blocks (render "#é #b/c".toList (some "#x".toList)) = [block]
        ∧ Query.ofSource block.body = Query.ofSource restatedSource := by
  have habove : leavesOpen blockAbove = false := by decide +kernel
  have hwanted : isValue "#work #work/é #work".toList = true := by decide +kernel
  have hdraft : isValue "#draft".toList = true := by decide +kernel
  have hquery : Query.ofSource restatedSource
      = ⟨["#é".toList, "#b/c".toList], [], ["#x".toList]⟩ := by decide +kernel
  refine ⟨⟨habove, hwanted, hdraft, ?_⟩, hquery, ?_⟩
  · obtain ⟨block, hblock, hblocks, hsource, -⟩ :=
      render_roundtrip.1 blockAbove "#work #work/é #work".toList (some "#draft".toList)
        blockBelow habove hwanted (by rintro _ ⟨⟩; exact .inr (.inr hdraft))
    have halone : blocks (render "#work #work/é #work".toList (some "#draft".toList))
        = [⟨"tags: #work #work/é #work\nexclude: #draft".toList, 0, 3⟩] := by
      decide +kernel
    obtain rfl := List.singleton_inj.mp (hblock.symm.trans halone)
    have htags : tagsIn "#work #work/é #work".toList
        = ["#work".toList, "#work/é".toList] := by decide +kernel
    have hexcluded : tagsIn "#draft".toList = ["#draft".toList] := by decide +kernel
    rw [hblocks, hsource, htags, Option.getD_some, hexcluded]
    exact ⟨by decide +kernel, rfl⟩
  · have hany : (Query.ofSource restatedSource).anyOf ≠ [] := by
      rw [hquery]
      exact List.cons_ne_nil _ _
    have hall : (Query.ofSource restatedSource).allOf = [] := by
      rw [hquery]
    have hblock := render_roundtrip.2 restatedSource hany hall
    rw [hquery] at hblock ⊢
    exact hblock

end NoteDigest.Directive
