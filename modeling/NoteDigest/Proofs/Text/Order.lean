import Mathlib.Data.Char
import Mathlib.Data.List.Lex
import NoteDigest.Text.Basic

/-! # The order of texts — `Text.le` is the lexicographic order

    `Text.le` compares texts character by character.  It is the order that lists of
    characters carry already, hence a linear order: total, transitive, antisymmetric.  A
    text comes before all that it begins, and texts that begin alike stand together: none
    that begins otherwise comes between two of them (`isPrefix_of_between`). -/

namespace NoteDigest.Text

/-- One text comes before another if they are equal, or differ first at a character that
    is smaller on the left. -/
theorem le_iff_lex : ∀ a b : Text, le a b = true ↔ List.Lex (· < ·) a b ∨ a = b := by
  intro a
  induction a with
  | nil =>
      intro b
      cases b with
      | nil => simp [le]
      | cons y ys => simp [le]
  | cons x xs ih =>
      intro b
      cases b with
      | nil => simp [le]
      | cons y ys =>
          have h : le (x :: xs) (y :: ys) = true ↔ x < y ∨ x = y ∧ le xs ys = true := by
            simp [le]
          rw [h, ih ys, List.cons_lex_cons_iff, List.cons.injEq]
          by_cases hxy : x = y
          · simp [hxy]
          · simp [hxy]

/-- **THE ORDER** of texts is the lexicographic one. -/
theorem le_iff (a b : Text) : le a b = true ↔ a ≤ b := by
  rw [le_iff_lt_or_eq]
  exact le_iff_lex a b

theorem le_trans (a b c : Text) (hab : le a b = true) (hbc : le b c = true) :
    le a c = true := by
  rw [le_iff] at hab hbc ⊢
  exact hab.trans hbc

theorem le_total (a b : Text) : (le a b || le b a) = true := by
  rw [Bool.or_eq_true, le_iff, le_iff]
  exact LinearOrder.le_total a b

theorem le_antisymm {a b : Text} (hab : le a b = true) (hba : le b a = true) : a = b := by
  rw [le_iff] at hab hba
  exact hab.antisymm hba

theorem le_refl (a : Text) : le a a = true :=
  (le_iff a a).mpr le_rfl

/-! ## Beginnings -/

/-- A text comes before all that it begins. -/
theorem le_append (a rest : Text) : le a (a ++ rest) = true := by
  induction a with
  | nil => rfl
  | cons c a ih => simp [le, ih]

/-- **BETWEEN TEXTS** that begin alike stand only such that begin so too. -/
theorem isPrefix_of_between {lead : Text} :
    ∀ {a b c : Text}, lead <+: a → lead <+: c → le a b = true → le b c = true → lead <+: b := by
  induction lead with
  | nil =>
      intro a b c _ _ _ _
      exact List.nil_prefix
  | cons x lead ih =>
      rintro a b c ⟨a', rfl⟩ ⟨c', rfl⟩ hab hbc
      cases b with
      | nil => cases hab
      | cons y b =>
          have hxy : x < y ∨ x = y ∧ le (lead ++ a') b = true := by simpa [le] using hab
          have hyx : y < x ∨ y = x ∧ le b (lead ++ c') = true := by simpa [le] using hbc
          -- the first character of `b` stands between `x` and `x`
          rcases hxy with hlt | ⟨rfl, hab'⟩
          · rcases hyx with hgt | ⟨heq, -⟩
            · exact absurd hgt hlt.asymm
            · exact absurd heq hlt.ne'
          · rcases hyx with hgt | ⟨-, hbc'⟩
            · exact absurd rfl hgt.ne
            · have hrest := ih (List.prefix_append lead a') (List.prefix_append lead c') hab' hbc'
              exact List.cons_prefix_cons.mpr ⟨rfl, hrest⟩

end NoteDigest.Text
