import NoteDigest.Files.Path
import NoteDigest.Proofs.Text.Pieces

/-! # Names — what an entry can be called

    An entry has a name that leads down from its directory, without the characters that a
    path gives a meaning of their own.  Such names survive being written as a path and
    read again (`parse_namesText`), so a place can be referred to by text. -/

namespace NoteDigest.Path

/-- A name that leads from a directory to one of its entries. -/
def isStep (name : Name) : Bool :=
  !isIdle name && name != parentName

theorem not_isIdle_of_isStep {name : Name} (h : isStep name = true) : isIdle name = false := by
  rw [isStep, Bool.and_eq_true] at h
  simpa using h.1

theorem not_parentName_of_isStep {name : Name} (h : isStep name = true) :
    (name == parentName) = false := by
  rw [isStep, Bool.and_eq_true] at h
  simpa using h.2

/-- A name stays in its directory, leads up, or leads down. -/
theorem name_cases (name : Name) :
    isIdle name = true ∨ name = parentName ∨ isStep name = true := by
  by_cases hidle : isIdle name = true
  · exact .inl hidle
  · by_cases hup : name = parentName
    · exact .inr (.inl hup)
    · exact .inr (.inr (by simp [isStep, hidle, hup]))

/-- The name of an entry: it leads down, and holds neither a slash nor a NUL. -/
structure IsName (name : Name) : Prop where
  step : isStep name = true
  slashless : '/' ∉ name
  nulless : Text.hasNul name = false

instance (name : Name) : Decidable (IsName name) :=
  decidable_of_iff (isStep name = true ∧ '/' ∉ name ∧ Text.hasNul name = false)
    ⟨fun h => ⟨h.1, h.2.1, h.2.2⟩, fun h => ⟨h.step, h.slashless, h.nulless⟩⟩

theorem IsName.ne_slash {name : Name} (h : IsName name) : ∀ c ∈ name, (c == '/') = false := by
  intro c hc
  refine beq_false_of_ne ?_
  rintro rfl
  exact h.slashless hc

theorem IsName.ne_nil {name : Name} (h : IsName name) : name ≠ [] := by
  rintro rfl
  cases h.step

/-- Glued names do not start with a slash. -/
theorem head?_joinWith_ne_slash {name : Name} (h : IsName name) (rest : List Name) :
    ((Text.joinWith ['/'] (name :: rest)).head? == some '/') = false := by
  cases hname : name with
  | nil => exact absurd hname h.ne_nil
  | cons c others =>
      have hc : (c == '/') = false := h.ne_slash c (hname ▸ List.mem_cons_self)
      cases rest with
      | nil => simpa [Text.joinWith] using hc
      | cons next rest => simpa [Text.joinWith] using hc

/-- **NAMES SURVIVE AS TEXT**: the path written from the names of entries reads as these
    names. -/
theorem parse_namesText {names : List Name} (h : ∀ name ∈ names, IsName name) :
    parse (namesText names) = ⟨false, names⟩ := by
  cases names with
  | nil => rfl
  | cons name rest =>
      have hpieces : Text.splitWhere (· == '/') (Text.joinWith ['/'] (name :: rest))
          = name :: rest :=
        Text.splitWhere_joinWith rfl (List.cons_ne_nil name rest)
          fun piece hpiece => (h piece hpiece).ne_slash
      have hkept : (name :: rest).filter (!isIdle ·) = name :: rest := by
        refine List.filter_eq_self.mpr fun x hx => ?_
        rw [not_isIdle_of_isStep (h x hx).step]
        rfl
      show tidy (ofText (Text.joinWith ['/'] (name :: rest))) = _
      rw [ofText, hpieces, head?_joinWith_ne_slash (h name List.mem_cons_self), tidy, hkept]

/-- Names below a place, written as a path, lead on from there. -/
theorem join_parse_namesText {names : List Name} (h : ∀ name ∈ names, IsName name)
    (place : Place) :
    (toPlace place).join (parse (namesText names)) = toPlace (place ++ names) := by
  rw [parse_namesText h]
  rfl

/-! ## Pieces of paths -/

/-- What can stand between the slashes of a path. -/
def IsPiece (name : Name) : Prop :=
  '/' ∉ name ∧ Text.hasNul name = false

theorem IsPiece.isName {name : Name} (h : IsPiece name) (hstep : isStep name = true) :
    IsName name :=
  ⟨hstep, h.1, h.2⟩

theorem isPiece_ofText {text : Text} (h : Text.hasNul text = false) :
    ∀ name ∈ (ofText text).names, IsPiece name := by
  intro name hname
  constructor
  · exact Text.notMem_of_mem_splitWhere hname
  · rw [Text.hasNul] at h ⊢
    simp only [List.contains_eq_mem, decide_eq_false_iff_not] at h ⊢
    intro hnul
    exact h (Text.mem_of_mem_splitWhere hname nul hnul).1

end NoteDigest.Path
