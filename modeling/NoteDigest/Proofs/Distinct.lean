import Mathlib.Data.List.Nodup

/-! # Distinct items — what is left when repetitions are dropped

    `List.eraseDups` keeps the first of several equal items.  What it leaves is distinct,
    and what is distinct it leaves as it is. -/

namespace NoteDigest

variable {α : Type} [BEq α] [LawfulBEq α]

theorem nodup_eraseDups : ∀ items : List α, items.eraseDups.Nodup
  | [] => List.nodup_nil
  | item :: rest => by
      have hless : (rest.filter fun other => !other == item).length < rest.length + 1 :=
        Nat.lt_succ_of_le (List.length_filter_le _ _)
      rw [List.eraseDups_cons]
      refine List.nodup_cons.mpr ⟨?_, nodup_eraseDups _⟩
      rw [List.mem_eraseDups, List.mem_filter]
      rintro ⟨-, hne⟩
      simp at hne
termination_by items => items.length

theorem eraseDups_of_nodup {items : List α} (h : items.Nodup) : items.eraseDups = items := by
  induction items with
  | nil => rfl
  | cons item rest ih =>
      obtain ⟨hnotMem, hrest⟩ := List.nodup_cons.mp h
      have hkept : (rest.filter fun other => !other == item) = rest := by
        refine List.filter_eq_self.mpr ?_
        intro other hother
        have hne : other ≠ item := fun heq => hnotMem (heq ▸ hother)
        simpa using hne
      rw [List.eraseDups_cons, hkept, ih hrest]

end NoteDigest
