import Mathlib.Data.List.Basic
import NoteDigest.Summary.Build

/-! # Loading — what is left of a list of items when each is loaded

    `loadEach` leaves unreadable items out and gives up at the first fatal failure.  So it
    succeeds exactly when no item fails fatally (`loadEach_isOk_iff`), and then it is a
    plain `filterMap` (`loadEach_eq_filterMap`). -/

namespace NoteDigest

variable {ε α β : Type} {load : α → Except (LoadFault ε) β}

/-- No item fails fatally when it is loaded. -/
def Forgiving (load : α → Except (LoadFault ε) β) (items : List α) : Prop :=
  ∀ item ∈ items, ∀ cause, load item ≠ .error (.fatal cause)

theorem Forgiving.subset {items items' : List α} (h : Forgiving load items)
    (hsub : ∀ item ∈ items', item ∈ items) : Forgiving load items' :=
  fun item hitem => h item (hsub item hitem)

/-- What is made of the result does not matter. -/
theorem Forgiving.map {γ : Type} {items : List α} (h : Forgiving load items)
    (f : α → β → γ) : Forgiving (fun item => (load item).map (f item)) items := by
  intro item hitem cause hfatal
  have hmap : (load item).map (f item) = .error (.fatal cause) := hfatal
  cases hload : load item with
  | ok found => rw [hload] at hmap; cases hmap
  | error fault =>
      rw [hload] at hmap
      have hfault : fault = .fatal cause := Except.error.inj hmap
      exact h item hitem cause (hfault ▸ hload)

theorem Forgiving.of_map {γ : Type} {items : List α} {f : α → β → γ}
    (h : Forgiving (fun item => (load item).map (f item)) items) : Forgiving load items := by
  intro item hitem cause hfatal
  refine h item hitem cause ?_
  show (load item).map (f item) = _
  rw [hfatal]
  rfl

/-- Items that become unreadable do not fail fatally. -/
theorem Forgiving.unreadable {items : List α} (h : Forgiving load items) (gone : α → Bool) :
    Forgiving (fun item => if gone item then .error .unreadable else load item) items := by
  intro item hitem cause hfatal
  have hfails : (if gone item then .error .unreadable else load item)
      = .error (.fatal cause) := hfatal
  split at hfails
  · cases hfails
  · exact h item hitem cause hfails

/-- **LOADING** without fatal failures keeps what loads, in order. -/
theorem loadEach_eq_filterMap :
    ∀ {items : List α}, Forgiving load items →
      loadEach load items = .ok (items.filterMap fun item => (load item).toOption) := by
  intro items
  induction items with
  | nil => intro _; rfl
  | cons item rest ih =>
      intro h
      have hrest := ih (h.subset fun x hx => List.mem_cons_of_mem item hx)
      rw [loadEach]
      cases hload : load item with
      | ok found =>
          show (found :: ·) <$> loadEach load rest = _
          rw [hrest, List.filterMap_cons, hload]
          rfl
      | error fault =>
          cases fault with
          | unreadable =>
              show loadEach load rest = _
              rw [hrest, List.filterMap_cons, hload]
              rfl
          | fatal cause => exact absurd hload (h item List.mem_cons_self cause)

/-- A failure of the whole is a fatal failure of one of the items. -/
theorem exists_fatal_of_loadEach_eq_error {cause : ε} :
    ∀ {items : List α}, loadEach load items = .error cause →
      ∃ item ∈ items, load item = .error (.fatal cause) := by
  intro items
  induction items with
  | nil => intro h; cases h
  | cons item rest ih =>
      intro h
      rw [loadEach] at h
      cases hload : load item with
      | ok found =>
          rw [hload] at h
          cases hrest : loadEach load rest with
          | ok all => rw [hrest] at h; cases h
          | error cause' =>
              rw [hrest] at h
              obtain ⟨x, hx, hfatal⟩ := ih (hrest.trans h)
              exact ⟨x, List.mem_cons_of_mem item hx, hfatal⟩
      | error fault =>
          rw [hload] at h
          cases fault with
          | unreadable =>
              obtain ⟨x, hx, hfatal⟩ := ih h
              exact ⟨x, List.mem_cons_of_mem item hx, hfatal⟩
          | fatal cause' =>
              have hcause : cause' = cause := Except.error.inj h
              exact ⟨item, List.mem_cons_self, hcause ▸ hload⟩

/-- A fatal failure of one of the items is a failure of the whole. -/
theorem loadEach_ne_ok_of_fatal {cause : ε} :
    ∀ {items : List α} {item : α}, item ∈ items → load item = .error (.fatal cause) →
      ∀ found, loadEach load items ≠ .ok found := by
  intro items
  induction items with
  | nil => intro item hmem; cases hmem
  | cons first rest ih =>
      intro item hmem hfatal found h
      rw [loadEach] at h
      rcases List.mem_cons.mp hmem with rfl | hmem
      · rw [hfatal] at h
        cases h
      · cases hload : load first with
        | ok x =>
            rw [hload] at h
            cases hrest : loadEach load rest with
            | ok all => exact ih hmem hfatal all hrest
            | error cause' => rw [hrest] at h; cases h
        | error fault =>
            rw [hload] at h
            cases fault with
            | unreadable => exact ih hmem hfatal found h
            | fatal cause' => cases h

/-- **LOADING SUCCEEDS** exactly when no item fails fatally. -/
theorem loadEach_isOk_iff {items : List α} :
    (∃ found, loadEach load items = .ok found) ↔ Forgiving load items := by
  constructor
  · rintro ⟨found, h⟩ item hitem cause hfatal
    exact loadEach_ne_ok_of_fatal hitem hfatal found h
  · intro h
    exact ⟨_, loadEach_eq_filterMap h⟩

/-- What is kept was loaded from one of the items. -/
theorem exists_of_mem_loadEach {items : List α} {found : List β}
    (h : loadEach load items = .ok found) {x : β} (hx : x ∈ found) :
    ∃ item ∈ items, load item = .ok x := by
  rw [loadEach_eq_filterMap (loadEach_isOk_iff.mp ⟨found, h⟩)] at h
  rw [← Except.ok.inj h] at hx
  obtain ⟨item, hitem, hload⟩ := List.mem_filterMap.mp hx
  refine ⟨item, hitem, ?_⟩
  cases hfound : load item with
  | error fault => rw [hfound] at hload; cases hload
  | ok y =>
      rw [hfound] at hload
      rw [Option.some.inj hload]

theorem mem_of_mem_triedBy {items : List α} {item : α} (h : item ∈ triedBy load items) :
    item ∈ items := by
  induction items with
  | nil => cases h
  | cons first rest ih =>
      rw [triedBy] at h
      split at h
      · rw [List.mem_singleton.mp h]
        exact List.mem_cons_self
      · rcases List.mem_cons.mp h with rfl | h
        · exact List.mem_cons_self
        · exact List.mem_cons_of_mem first (ih h)

/-- What is tried is a beginning of the items. -/
theorem triedBy_isPrefix (load : α → Except (LoadFault ε) β) :
    ∀ items : List α, triedBy load items <+: items := by
  intro items
  induction items with
  | nil => exact List.nil_prefix
  | cons item rest ih =>
      rw [triedBy]
      split
      · exact ⟨rest, rfl⟩
      · exact List.cons_prefix_cons.mpr ⟨rfl, ih⟩

/-- **ALL ARE TRIED** when none fails fatally. -/
theorem triedBy_eq_self {items : List α} (h : Forgiving load items) :
    triedBy load items = items := by
  induction items with
  | nil => rfl
  | cons item rest ih =>
      obtain ⟨hitem, hrest⟩ := List.forall_mem_cons.mp h
      rw [triedBy]
      split
      · rename_i cause hfatal
        exact absurd hfatal (hitem cause)
      · rw [ih hrest]

end NoteDigest
