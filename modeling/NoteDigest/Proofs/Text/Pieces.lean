import NoteDigest.Text.Basic

/-! # Pieces — cutting and gluing undo each other

    `Text.splitWhere` cuts a text at separators, `Text.joinWith` glues pieces together.
    A separator between two texts keeps their pieces apart (`splitWhere_append`).  From this
    it follows that

    * the pieces of a text, glued, are the text (`joinWith_splitWhere`);
    * glued pieces, cut, are the pieces, as long as there is at least one and none of them
      holds a separator (`splitWhere_joinWith`);
    * so there is one way only to cut a text (`eq_splitWhere_iff`). -/

namespace NoteDigest.Text

variable {sep : Char → Bool}

/-! ## Cutting -/

theorem splitWhere_cons_sep {c : Char} (hc : sep c = true) (rest : Text) :
    splitWhere sep (c :: rest) = [] :: splitWhere sep rest := by
  rw [splitWhere, if_pos hc]

/-- Any other character joins the first piece of what follows it. -/
theorem splitWhere_cons {c : Char} (hc : sep c = false) {rest first : Text} {others : List Text}
    (hrest : splitWhere sep rest = first :: others) :
    splitWhere sep (c :: rest) = (c :: first) :: others := by
  have hsep : ¬ sep c = true := by simp [hc]
  rw [splitWhere, if_neg hsep, hrest]

theorem splitWhere_ne_nil (sep : Char → Bool) (text : Text) : splitWhere sep text ≠ [] := by
  induction text with
  | nil => exact List.cons_ne_nil [] []
  | cons c rest ih =>
      cases hc : sep c with
      | true =>
          rw [splitWhere_cons_sep hc]
          exact List.cons_ne_nil [] _
      | false =>
          obtain ⟨first, others, hrest⟩ := List.exists_cons_of_ne_nil ih
          rw [splitWhere_cons hc hrest]
          exact List.cons_ne_nil _ _

/-- **A SEPARATOR** between two texts keeps their pieces apart. -/
theorem splitWhere_append {s : Char} (hs : sep s = true) (text after : Text) :
    splitWhere sep (text ++ s :: after) = splitWhere sep text ++ splitWhere sep after := by
  induction text with
  | nil => exact splitWhere_cons_sep hs after
  | cons c rest ih =>
      rw [List.cons_append]
      cases hc : sep c with
      | true => rw [splitWhere_cons_sep hc, splitWhere_cons_sep hc, ih, List.cons_append]
      | false =>
          obtain ⟨first, others, hrest⟩ := List.exists_cons_of_ne_nil (splitWhere_ne_nil sep rest)
          rw [hrest, List.cons_append] at ih
          rw [splitWhere_cons hc ih, splitWhere_cons hc hrest, List.cons_append]

/-- A text without separators is one piece. -/
theorem splitWhere_of_none {piece : Text} (h : ∀ c ∈ piece, sep c = false) :
    splitWhere sep piece = [piece] := by
  induction piece with
  | nil => rfl
  | cons c rest ih =>
      obtain ⟨hc, hrest⟩ := List.forall_mem_cons.mp h
      exact splitWhere_cons hc (ih hrest)

/-- A piece holds characters of the text, and no separator. -/
theorem mem_of_mem_splitWhere {text : Text} :
    ∀ {piece : Text}, piece ∈ splitWhere sep text → ∀ c ∈ piece, c ∈ text ∧ sep c = false := by
  induction text with
  | nil =>
      intro piece hpiece c hc
      rw [splitWhere, List.mem_singleton] at hpiece
      rw [hpiece] at hc
      cases hc
  | cons d rest ih =>
      intro piece hpiece c hc
      have hlater : piece ∈ splitWhere sep rest → c ∈ d :: rest ∧ sep c = false := by
        intro hmem
        obtain ⟨hrest, hsep⟩ := ih hmem c hc
        exact ⟨List.mem_cons_of_mem d hrest, hsep⟩
      cases hd : sep d with
      | true =>
          rw [splitWhere_cons_sep hd] at hpiece
          rcases List.mem_cons.mp hpiece with rfl | hmem
          · cases hc
          · exact hlater hmem
      | false =>
          obtain ⟨first, others, hrest⟩ := List.exists_cons_of_ne_nil (splitWhere_ne_nil sep rest)
          rw [splitWhere_cons hd hrest] at hpiece
          rw [hrest] at ih hlater
          rcases List.mem_cons.mp hpiece with rfl | hmem
          · rcases List.mem_cons.mp hc with rfl | hc
            · exact ⟨List.mem_cons_self, hd⟩
            · obtain ⟨hmem, hsep⟩ := ih List.mem_cons_self c hc
              exact ⟨List.mem_cons_of_mem d hmem, hsep⟩
          · exact hlater (List.mem_cons_of_mem first hmem)

theorem notMem_of_mem_splitWhere {s : Char} {text piece : Text}
    (h : piece ∈ splitWhere (· == s) text) : s ∉ piece := by
  intro hmem
  have hsep : (s == s) = false := (mem_of_mem_splitWhere h s hmem).2
  rw [beq_self_eq_true] at hsep
  cases hsep

/-! ## Gluing -/

section Gluing

variable {s : Char} {pieces pieces' : List Text}

theorem joinWith_cons (s : Char) (piece : Text) (hne : pieces ≠ []) :
    joinWith [s] (piece :: pieces) = piece ++ s :: joinWith [s] pieces := by
  cases pieces with
  | nil => exact absurd rfl hne
  | cons next others =>
      show piece ++ [s] ++ joinWith [s] (next :: others) = _
      rw [List.append_assoc, List.singleton_append]

theorem joinWith_append (s : Char) (hne : pieces ≠ []) (hne' : pieces' ≠ []) :
    joinWith [s] (pieces ++ pieces') = joinWith [s] pieces ++ s :: joinWith [s] pieces' := by
  induction pieces with
  | nil => exact absurd rfl hne
  | cons piece others ih =>
      cases others with
      | nil => exact joinWith_cons s piece hne'
      | cons next others =>
          have hglued := ih (List.cons_ne_nil next others)
          have hsome : next :: others ++ pieces' ≠ [] := List.cons_ne_nil next _
          rw [List.cons_append, joinWith_cons s piece hsome, hglued,
            joinWith_cons s piece (List.cons_ne_nil next others), List.append_assoc,
            List.cons_append]

/-- **CUTTING UNDOES GLUING** when the pieces hold no separator. -/
theorem splitWhere_joinWith (hs : sep s = true) (hne : pieces ≠ [])
    (h : ∀ piece ∈ pieces, ∀ c ∈ piece, sep c = false) :
    splitWhere sep (joinWith [s] pieces) = pieces := by
  induction pieces with
  | nil => exact absurd rfl hne
  | cons piece others ih =>
      obtain ⟨hpiece, hothers⟩ := List.forall_mem_cons.mp h
      cases others with
      | nil => exact splitWhere_of_none hpiece
      | cons next others =>
          have hnext : next :: others ≠ [] := List.cons_ne_nil next others
          rw [joinWith_cons s piece hnext, splitWhere_append hs, splitWhere_of_none hpiece,
            ih hnext hothers, List.singleton_append]

/-- **GLUING UNDOES CUTTING**: the pieces of a text make up the text. -/
theorem joinWith_splitWhere (s : Char) (text : Text) :
    joinWith [s] (splitWhere (· == s) text) = text := by
  induction text with
  | nil => rfl
  | cons c rest ih =>
      have hne := splitWhere_ne_nil (· == s) rest
      by_cases hc : c = s
      · rw [splitWhere_cons_sep (by simpa using hc), joinWith_cons s [] hne, ih, hc,
          List.nil_append]
      · obtain ⟨first, others, hrest⟩ := List.exists_cons_of_ne_nil hne
        have hcons : splitWhere (· == s) (c :: rest) = (c :: first) :: others := by
          refine splitWhere_cons ?_ hrest
          simpa using hc
        rw [hcons]
        rw [hrest] at ih
        cases others with
        | nil => exact congrArg (c :: ·) ih
        | cons next others =>
            have hnext : next :: others ≠ [] := List.cons_ne_nil next others
            rw [joinWith_cons s _ hnext] at ih ⊢
            rw [List.cons_append, ih]

/-- **ONE WAY TO CUT**: the pieces of a text are the one row of texts without the separator,
    of at least one text, that makes up the text. -/
theorem eq_splitWhere_iff {text : Text} :
    pieces = splitWhere (· == s) text
      ↔ pieces ≠ [] ∧ (∀ piece ∈ pieces, s ∉ piece) ∧ joinWith [s] pieces = text := by
  constructor
  · rintro rfl
    exact ⟨splitWhere_ne_nil _ text, fun _ => notMem_of_mem_splitWhere, joinWith_splitWhere s text⟩
  · rintro ⟨hne, hfree, rfl⟩
    refine (splitWhere_joinWith ?_ hne ?_).symm
    · exact beq_self_eq_true s
    · intro piece hpiece c hc
      refine beq_false_of_ne ?_
      rintro rfl
      exact hfree piece hpiece hc

end Gluing

end NoteDigest.Text
