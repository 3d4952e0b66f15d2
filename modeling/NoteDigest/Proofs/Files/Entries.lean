import NoteDigest.Files.Resolve

/-! # Entries — what is at a place

    The tree is a map from places to entries, with the top directory always in it.  This
    file says what `get?` tells of the tree after `put` and `erase`, and what it means for
    there to be a directory or a link. -/

namespace NoteDigest.Files

variable {fs : Files} {place other : Place} {name : Name} {target : Text}

theorem hasDirectory_iff : fs.hasDirectory place = true ↔ fs.get? place = some .directory := by
  rw [hasDirectory]
  constructor
  · intro h
    split at h
    · assumption
    · cases h
  · intro h
    rw [h]

theorem linkAt?_eq_some_iff :
    fs.linkAt? place name = some target
      ↔ fs.hasDirectory place = true ∧ fs.get? (place ++ [name]) = some (.link target) := by
  rw [linkAt?]
  constructor
  · intro h
    split at h
    · rename_i hdir
      refine ⟨hdir, ?_⟩
      split at h
      · rename_i hget
        rw [hget, Option.some.inj h]
      · cases h
    · cases h
  · rintro ⟨hdir, hget⟩
    rw [if_pos hdir, hget]

theorem linkAt?_eq_none (h : ∀ target, fs.get? (place ++ [name]) ≠ some (.link target)) :
    fs.linkAt? place name = none := by
  cases hlink : fs.linkAt? place name with
  | none => rfl
  | some target => exact absurd (linkAt?_eq_some_iff.mp hlink).2 (h target)

theorem mem_entries_of_get? {entry : Entry} (hne : place ≠ [])
    (h : fs.get? place = some entry) : (place, entry) ∈ fs.entries := by
  rw [get?, if_neg (by simpa using hne)] at h
  obtain ⟨before, after, hentries, -⟩ := List.lookup_eq_some_iff.mp h
  rw [hentries]
  exact List.mem_append_right before List.mem_cons_self

/-- Nothing but a directory is at the top. -/
theorem ne_nil_of_not_hasDirectory (h : fs.hasDirectory place = false) : place ≠ [] := by
  rintro rfl
  cases h

theorem ne_of_hasDirectory (hplace : fs.hasDirectory place = false)
    (hother : fs.hasDirectory other = true) : other ≠ place := by
  rintro rfl
  cases hplace.symm.trans hother

/-! ## Putting and erasing -/

theorem lookup_filter_ne {α β : Type} [BEq α] [LawfulBEq α] [DecidableEq α] (gone key : α) :
    ∀ entries : List (α × β), (entries.filter (·.1 != gone)).lookup key
      = if key = gone then none else entries.lookup key := by
  intro entries
  induction entries with
  | nil => simp
  | cons entry rest ih =>
      obtain ⟨known, found⟩ := entry
      by_cases hknown : known = gone
      · rw [List.filter_cons_of_neg (by simp [hknown]), ih, List.lookup_cons]
        by_cases hkey : key = gone
        · rw [if_pos hkey, if_pos hkey]
        · rw [if_neg hkey, if_neg hkey, hknown, beq_false_of_ne hkey]
      · rw [List.filter_cons_of_pos (by simp [hknown]), List.lookup_cons, ih, List.lookup_cons]
        by_cases hkey : key = gone
        · rw [if_pos hkey, if_pos hkey, hkey, beq_false_of_ne (Ne.symm hknown)]
        · rw [if_neg hkey, if_neg hkey]

/-- What is found after one entry is put in front and others of its key are taken out. -/
theorem lookup_cons_filter_ne {α β : Type} [BEq α] [LawfulBEq α] [DecidableEq α]
    (known key : α) (found : β) (entries : List (α × β)) :
    ((known, found) :: entries.filter (·.1 != known)).lookup key
      = if key = known then some found else entries.lookup key := by
  rw [List.lookup_cons, lookup_filter_ne]
  by_cases hkey : key = known
  · rw [if_pos hkey, if_pos hkey, hkey, beq_self_eq_true]
  · rw [if_neg hkey, if_neg hkey, beq_false_of_ne hkey]

theorem get?_put (hplace : place ≠ []) (entry : Entry) (other : Place) :
    (fs.put place entry).get? other = if other = place then some entry else fs.get? other := by
  rw [get?, get?, put]
  by_cases hnil : other = []
  · rw [hnil, if_neg (Ne.symm hplace)]
    rfl
  · have hempty : ¬ other.isEmpty = true := by simpa using hnil
    rw [if_neg hempty, if_neg hempty]
    exact lookup_cons_filter_ne place other entry fs.entries

theorem get?_erase (hplace : place ≠ []) (other : Place) :
    (fs.erase place).get? other = if other = place then none else fs.get? other := by
  rw [get?, get?, erase]
  by_cases hnil : other = []
  · rw [hnil, if_neg (Ne.symm hplace)]
    rfl
  · have hempty : ¬ other.isEmpty = true := by simpa using hnil
    rw [if_neg hempty, if_neg hempty]
    exact lookup_filter_ne place other fs.entries

end NoteDigest.Files
