import NoteDigest.Note.FrontMatter

/-! # Front matter — when it gives metadata

    Front matter fails in two ways only: a scalar in it looks like a value of some kind and
    is none, or the value that tells whether the note opts out cannot be written
    (`metadataOf_isOk_iff`).  Text that is no mapping gives no properties
    (`properties_of_no_map`). -/

namespace NoteDigest.Note

variable {lines inner : List Text} {found : Properties} {value : Yaml.Value}

/-- Every scalar in a front matter can be converted, and the value in it that tells whether
    the note opts out can be written. -/
def Converts (lines : List Text) : Prop :=
  ∀ inner, frontMatterLines? lines = some inner →
    (∀ cause, Yaml.load (Text.unlines inner) ≠ .error (.conversion cause))
    ∧ ∀ entries value, Yaml.load (Text.unlines inner) = .ok (.map entries) →
      Yaml.entry? entries optOutProperty = some value →
        Yaml.writingFault? Yaml.maxWrittenDepth value = none

theorem propertiesOf_isOk_iff (text : Text) :
    (∃ found, propertiesOf text = .ok found)
      ↔ ∀ cause, Yaml.load text ≠ .error (.conversion cause) := by
  rw [propertiesOf]
  constructor
  · rintro ⟨found, hfound⟩ cause hload
    rw [hload] at hfound
    cases hfound
  · intro h
    split
    · exact ⟨_, rfl⟩
    · exact ⟨_, rfl⟩
    · exact ⟨_, rfl⟩
    · rename_i cause hload
      exact absurd hload (h cause)

/-- Properties with a value for a name are those of a mapping. -/
theorem load_of_value {text name : Text} (hfound : propertiesOf text = .ok found)
    (hvalue : Yaml.entry? found name = some value) : Yaml.load text = .ok (.map found) := by
  rw [propertiesOf] at hfound
  split at hfound
  · rename_i entries hload
    rwa [← Except.ok.inj hfound]
  · rw [← Except.ok.inj hfound] at hvalue
    cases hvalue
  · rw [← Except.ok.inj hfound] at hvalue
    cases hvalue
  · cases hfound

/-- A value tells whether a note opts out, unless it cannot be written. -/
theorem optOutOf_isOk_iff :
    (∃ told, optOutOf value = .ok told)
      ↔ Yaml.writingFault? Yaml.maxWrittenDepth value = none := by
  rw [optOutOf.eq_def]
  split
  · exact iff_of_true ⟨_, rfl⟩ rfl
  · exact iff_of_true ⟨_, rfl⟩ rfl
  · cases Yaml.writingFault? Yaml.maxWrittenDepth value with
    | some cause => exact iff_of_false (by rintro ⟨told, ⟨⟩⟩) (Option.some_ne_none cause)
    | none => exact iff_of_true ⟨_, rfl⟩ rfl

theorem optOutIn_isOk_iff :
    (∃ told, optOutIn found = .ok told)
      ↔ ∀ value, Yaml.entry? found optOutProperty = some value →
        Yaml.writingFault? Yaml.maxWrittenDepth value = none := by
  rw [optOutIn]
  cases Yaml.entry? found optOutProperty with
  | none => exact iff_of_true ⟨_, rfl⟩ (by rintro _ ⟨⟩)
  | some value => simpa only [Option.some.injEq, forall_eq'] using optOutOf_isOk_iff

/-- Metadata is given exactly when properties are, and these tell whether the note opts out. -/
theorem metadataOf_eq_ok_iff {metadata : Metadata} :
    metadataOf lines = .ok metadata
      ↔ ∃ found told, properties lines = .ok found ∧ optOutIn found = .ok told
        ∧ metadata = ⟨occurrencesIn lines, told⟩ := by
  rw [metadataOf]
  constructor
  · intro h
    cases hfound : properties lines with
    | error cause =>
        rw [hfound] at h
        cases h
    | ok found =>
        rw [hfound] at h
        cases htold : optOutIn found with
        | error cause =>
            simp only [bind, Except.bind, htold] at h
            cases h
        | ok told =>
            simp only [bind, Except.bind, htold] at h
            exact ⟨found, told, rfl, htold, (Except.ok.inj h).symm⟩
  · rintro ⟨found, told, hfound, htold, rfl⟩
    rw [hfound]
    simp only [bind, Except.bind, htold]
    rfl

/-- **METADATA** is given exactly when the front matter converts. -/
theorem metadataOf_isOk_iff : (∃ found, metadataOf lines = .ok found) ↔ Converts lines := by
  simp only [metadataOf_eq_ok_iff, Converts]
  cases hinner : frontMatterLines? lines with
  | none =>
      refine iff_of_true ⟨_, [], false, ?_, rfl, rfl⟩ (by simp)
      rw [properties, hinner]
  | some inner =>
      have hproperties : properties lines = propertiesOf (Text.unlines inner) := by
        rw [properties, hinner]
      simp only [hproperties, Option.some.injEq, forall_eq', ← propertiesOf_isOk_iff]
      constructor
      · rintro ⟨_, found, told, hfound, htold, -⟩
        refine ⟨⟨found, hfound⟩, fun entries value hload hvalue => ?_⟩
        rw [propertiesOf, hload] at hfound
        obtain rfl := Except.ok.inj hfound
        exact optOutIn_isOk_iff.mp ⟨told, htold⟩ value hvalue
      · rintro ⟨⟨found, hfound⟩, hwritten⟩
        obtain ⟨told, htold⟩ := optOutIn_isOk_iff.mpr fun value hvalue =>
          hwritten found value (load_of_value hfound hvalue) hvalue
        exact ⟨_, found, told, hfound, htold, rfl⟩

instance (lines : List Text) : Decidable (Converts lines) :=
  decidable_of_iff ((metadataOf lines).isOk = true) (by
    rw [← metadataOf_isOk_iff]
    cases metadataOf lines <;> simp [Except.isOk, Except.toBool])

/-- **NO MAPPING**, no properties. -/
theorem properties_of_no_map (hinner : frontMatterLines? lines = some inner)
    (hload : ∀ entries, Yaml.load (Text.unlines inner) ≠ .ok (.map entries)) :
    (properties lines).toOption.getD [] = [] := by
  rw [properties, hinner]
  show (propertiesOf (Text.unlines inner)).toOption.getD [] = []
  rw [propertiesOf]
  split
  · rename_i entries hmap
    exact absurd hmap (hload entries)
  · rfl
  · rfl
  · rfl

/-- Metadata of lines holds the occurrences in them. -/
theorem occurrences_of_metadataOf {metadata : Metadata} (h : metadataOf lines = .ok metadata) :
    metadata.occurrences = occurrencesIn lines := by
  obtain ⟨_, _, -, -, rfl⟩ := metadataOf_eq_ok_iff.mp h
  rfl

/-- Metadata of lines tells what the properties do. -/
theorem optedOut_of_metadataOf {metadata : Metadata} (h : metadataOf lines = .ok metadata) :
    metadata.optedOut = optsOut ((properties lines).toOption.getD []) := by
  obtain ⟨found, told, hfound, htold, rfl⟩ := metadataOf_eq_ok_iff.mp h
  rw [hfound]
  show told = (optOutIn found).toOption.getD false
  rw [htold]
  rfl

/-! ## Behind the closing delimiter -/

variable {lines' front : List Text} {i : Nat}

/-- **CUTTING** lines out up to the first that closes is to take as many as a search for it
    passes over. -/
theorem linesToClosing?_eq (lines : List Text) :
    linesToClosing? lines = (lines.findIdx? closesFrontMatter).map lines.take := by
  induction lines with
  | nil => rfl
  | cons line rest ih =>
      rw [linesToClosing?, List.findIdx?_cons]
      split
      · rfl
      · rw [ih, Option.map_map, Option.map_map]
        rfl

theorem linesToClosing?_append (h : linesToClosing? front = some inner) (after : List Text) :
    linesToClosing? (front ++ after) = some inner := by
  rw [linesToClosing?_eq] at h ⊢
  obtain ⟨i, hi, rfl⟩ := Option.map_eq_some_iff.mp h
  obtain ⟨hlt, -⟩ := List.findIdx?_eq_some_iff_getElem.mp hi
  rw [List.findIdx?_append, hi, Option.some_or, Option.map_some,
    List.take_append_of_le_length (Nat.le_of_lt hlt)]

theorem frontMatterLines?_append (h : frontMatterLines? front = some inner) (after : List Text) :
    frontMatterLines? (front ++ after) = some inner := by
  cases front with
  | nil => cases h
  | cons first rest =>
      rw [frontMatterLines?] at h
      rw [List.cons_append, frontMatterLines?]
      split at h
      · rename_i hopens
        rw [if_pos hopens, linesToClosing?_append h]
      · cases h

/-- The lines up to the first that closes, and that one, close as all lines do. -/
theorem linesToClosing?_take (h : lines.findIdx? closesFrontMatter = some i) :
    linesToClosing? (lines.take (i + 1)) = linesToClosing? lines := by
  have hfound : (lines.take (i + 1)).findIdx? closesFrontMatter = some i := by
    rw [List.findIdx?_take, h, Option.bind_some, Option.guard_eq_some_iff]
    exact ⟨rfl, decide_eq_true (Nat.lt_succ_self i)⟩
  rw [linesToClosing?_eq, linesToClosing?_eq, hfound, h, Option.map_some, Option.map_some,
    List.take_take, Nat.min_eq_left (Nat.le_succ i)]

/-- **FRONT MATTER** is found in the lines before the body. -/
theorem frontMatterLines?_take (lines : List Text) :
    frontMatterLines? (lines.take (bodyStart lines)) = frontMatterLines? lines := by
  cases lines with
  | nil => rfl
  | cons first rest =>
      rw [bodyStart]
      split
      · rename_i hopens
        split
        · rename_i i hi
          rw [List.take_succ_cons, frontMatterLines?, frontMatterLines?, if_pos hopens,
            if_pos hopens, linesToClosing?_take hi]
        · rename_i hnone
          rw [List.take_zero, frontMatterLines?, frontMatterLines?, if_pos hopens,
            linesToClosing?_eq rest, hnone]
          rfl
      · rename_i hopens
        rw [List.take_zero, frontMatterLines?, frontMatterLines?, if_neg hopens]

/-- The properties of a note are given, and opt it out of summaries. -/
def OptsOut (lines : List Text) : Prop :=
  ∃ found, properties lines = .ok found ∧ optsOut found = true

instance (lines : List Text) : Decidable (OptsOut lines) :=
  decidable_of_iff ((properties lines).toOption.any optsOut = true) (by
    rw [OptsOut]
    cases properties lines <;> simp [Except.toOption])

/-- Properties that opt a note out do tell. -/
theorem optOutIn_of_optsOut (h : optsOut found = true) : optOutIn found = .ok true := by
  rw [optsOut] at h
  cases htold : optOutIn found with
  | ok told =>
      rw [htold] at h
      exact congrArg Except.ok h
  | error cause =>
      rw [htold] at h
      cases h

/-- **A NOTE THAT OPTS OUT** has metadata that says so. -/
theorem OptsOut.metadataOf_eq (h : OptsOut lines) :
    metadataOf lines = .ok ⟨occurrencesIn lines, true⟩ := by
  obtain ⟨found, hfound, hout⟩ := h
  exact metadataOf_eq_ok_iff.mpr ⟨found, true, hfound, optOutIn_of_optsOut hout, rfl⟩

/-- Without front matter no note opts out. -/
theorem OptsOut.exists_frontMatter (h : OptsOut lines) :
    ∃ inner, frontMatterLines? lines = some inner := by
  obtain ⟨found, hfound, hout⟩ := h
  cases hinner : frontMatterLines? lines with
  | some inner => exact ⟨inner, rfl⟩
  | none =>
      rw [properties, hinner] at hfound
      rw [← Except.ok.inj hfound] at hout
      cases hout

/-- **THE BODY DOES NOT MATTER**: two notes that open with the same front matter have the same
    properties. -/
theorem properties_of_same_front (hinner : frontMatterLines? lines = some inner)
    (hfront : lines'.take (bodyStart lines) = lines.take (bodyStart lines)) :
    properties lines' = properties lines := by
  have hinner' : frontMatterLines? lines' = some inner := by
    rw [← List.take_append_drop (bodyStart lines) lines', hfront]
    exact frontMatterLines?_append ((frontMatterLines?_take lines).trans hinner) _
  rw [properties, properties, hinner, hinner']

theorem OptsOut.of_same_front (h : OptsOut lines)
    (hfront : lines'.take (bodyStart lines) = lines.take (bodyStart lines)) : OptsOut lines' := by
  obtain ⟨inner, hinner⟩ := h.exists_frontMatter
  rwa [OptsOut, properties_of_same_front hinner hfront]

end NoteDigest.Note
