import Mathlib.Data.List.Dedup
import Mathlib.Data.List.Flatten
import Mathlib.Data.List.Nodup
import Mathlib.Data.List.Pairwise
import NoteDigest.Proofs.Text.Order

/-! # Sorting by a text — stability, uniqueness, and the parts of one key

    Notes are sorted by their paths and fragments by their tags, both with a stable merge
    sort.  This file says what such a sort does:

    * a sorted list is determined by its items, if the keys tell them apart
      (`eq_of_perm_of_ascending`); then the keys rise from item to item
      (`rising_mergeSort_filterMap_iff`);
    * the items of one key keep their order (`filter_mergeSort_key`);
    * the sorted list is the parts of one key each, put together in the order of the keys
      (`mergeSort_key_eq_flatMap`), so items that are left out before sorting are left out of
      the sorted list (`sublist_mergeSort_key`), and neighbours with different keys can
      change places before they are sorted (`mergeSort_swap`);
    * items whose keys lie side by side stand side by side (`filter_isInfix_of_ascending`). -/

namespace NoteDigest.Text

variable {α : Type} (key : α → Text)

/-- The items stand in the order of their keys. -/
def Ascending (items : List α) : Prop :=
  items.Pairwise fun a b => le (key a) (key b) = true

theorem ascending_mergeSort (items : List α) :
    Ascending key (items.mergeSort fun a b => le (key a) (key b)) :=
  List.pairwise_mergeSort (fun a b c => le_trans (key a) (key b) (key c))
    (fun a b => le_total (key a) (key b)) items

/-- Leaving items out keeps the order, as long as each keeps its key. -/
theorem ascending_filterMap {β : Type} (key' : β → Text) (f : α → Option β)
    (hkey : ∀ a b, f a = some b → key' b = key a) {items : List α}
    (h : Ascending key items) : Ascending key' (items.filterMap f) := by
  refine List.Pairwise.filterMap f ?_ h
  intro a a' haa' b hb b' hb'
  rw [hkey a b hb, hkey a' b' hb']
  exact haa'

/-- **UNIQUENESS**: there is only one sorted list of items that their keys tell apart. -/
theorem eq_of_perm_of_ascending {l l' : List α}
    (hinj : ∀ a ∈ l, ∀ b ∈ l, key a = key b → a = b) (hperm : l.Perm l')
    (h : Ascending key l) (h' : Ascending key l') : l = l' := by
  refine hperm.eq_of_pairwise ?_ h h'
  intro a b ha hb hab hba
  exact hinj a ha b (hperm.mem_iff.mpr hb) (le_antisymm hab hba)

/-- The items stand in the order of their keys, and no two keys are the same. -/
def Rising (items : List α) : Prop :=
  items.Pairwise fun a b => le (key a) (key b) = true ∧ key a ≠ key b

theorem rising_iff_nodup {items : List α} (h : Ascending key items) :
    Rising key items ↔ (items.map key).Nodup := by
  rw [Rising, List.pairwise_and_iff, List.Nodup, List.pairwise_map]
  exact and_iff_right h

/-- **A SORTED LIST RISES** when the entries it was made from have different keys, if any. -/
theorem rising_mergeSort_filterMap_iff {β : Type} (f : β → Option α) {entries : List β}
    (hentries : entries.Nodup) :
    Rising key ((entries.filterMap f).mergeSort fun a b => le (key a) (key b))
      ↔ ∀ a ∈ entries, ∀ b ∈ entries, ∀ x, f a = some x → ∀ y, f b = some y →
          key x = key y → a = b := by
  have hperm := (List.mergeSort_perm (entries.filterMap f)
    fun a b => le (key a) (key b)).map key
  rw [rising_iff_nodup key (ascending_mergeSort key _), hperm.nodup_iff, List.Nodup,
    List.pairwise_map, List.pairwise_filterMap]
  constructor
  · intro h a ha b hb x hx y hy hkey
    by_contra hne
    have hsymm : Std.Symm fun a b => ∀ x, f a = some x → ∀ y, f b = some y → key x ≠ key y :=
      ⟨fun a b hab y hy x hx hyx => hab x hx y hy hyx.symm⟩
    exact h.forall ha hb hne x hx y hy hkey
  · intro h
    refine hentries.imp_of_mem ?_
    intro a b ha hb hne x hx y hy hkey
    exact hne (h a ha b hb x hx y hy hkey)

/-- Items can be chosen before or after sorting, if the key tells them apart. -/
theorem filter_mergeSort {l : List α} (hinj : ∀ a ∈ l, ∀ b ∈ l, key a = key b → a = b)
    (p : α → Bool) :
    (l.mergeSort fun a b => le (key a) (key b)).filter p
      = (l.filter p).mergeSort fun a b => le (key a) (key b) := by
  refine eq_of_perm_of_ascending key ?_ ?_ ?_ (ascending_mergeSort key (l.filter p))
  · intro a ha b hb
    exact hinj a (List.mem_mergeSort.mp (List.mem_filter.mp ha).1) b
      (List.mem_mergeSort.mp (List.mem_filter.mp hb).1)
  · exact ((List.mergeSort_perm l _).filter p).trans (List.mergeSort_perm (l.filter p) _).symm
  · exact (ascending_mergeSort key l).sublist List.filter_sublist

/-- **STABILITY**: the items of one key come out in the order they went in. -/
theorem filter_mergeSort_key (items : List α) (k : Text) :
    (items.mergeSort fun a b => le (key a) (key b)).filter (fun a => key a == k)
      = items.filter fun a => key a == k := by
  have htied : (items.filter fun a => key a == k).Pairwise
      fun a b => le (key a) (key b) = true := by
    refine List.pairwise_of_forall_mem_list ?_
    intro a ha b hb
    have hak : key a = k := by simpa using (List.mem_filter.mp ha).2
    have hbk : key b = k := by simpa using (List.mem_filter.mp hb).2
    rw [hak, hbk]
    exact le_refl k
  have hsub : (items.filter fun a => key a == k).Sublist
      (items.mergeSort fun a b => le (key a) (key b)) :=
    List.sublist_mergeSort (fun a b c => le_trans (key a) (key b) (key c))
      (fun a b => le_total (key a) (key b)) htied List.filter_sublist
  have hsub' := hsub.filter fun a => key a == k
  rw [List.filter_filter] at hsub'
  simp only [Bool.and_self] at hsub'
  have hlen := ((List.mergeSort_perm items fun a b => le (key a) (key b)).filter
    fun a => key a == k).length_eq
  exact (hsub'.eq_of_length hlen.symm).symm

/-- In a sorted list the items of the least key come first. -/
theorem filter_append_filter_of_ascending (k : Text) :
    ∀ {items : List α}, Ascending key items → (∀ a ∈ items, le k (key a) = true) →
      (items.filter fun a => key a == k) ++ (items.filter fun a => !(key a == k)) = items := by
  intro items
  induction items with
  | nil => intro _ _; rfl
  | cons a rest ih =>
      intro h hleast
      obtain ⟨ha, hrest⟩ := List.pairwise_cons.mp h
      by_cases hak : key a = k
      · rw [List.filter_cons_of_pos (by simpa using hak),
            List.filter_cons_of_neg (by simpa using hak), List.cons_append,
            ih hrest fun b hb => hleast b (List.mem_cons_of_mem a hb)]
      · -- everything behind `a` is at least `key a`, hence not `k`
        have hne : ∀ b ∈ a :: rest, ¬ key b = k := by
          intro b hb hbk
          rcases List.mem_cons.mp hb with rfl | hb
          · exact hak hbk
          · have hab := ha b hb
            rw [hbk] at hab
            exact hak (le_antisymm hab (hleast a List.mem_cons_self))
        rw [List.filter_eq_nil_iff.mpr (by simpa using hne),
            List.filter_eq_self.mpr (by simpa using hne), List.nil_append]

/-- A sorted list is its parts of one key each, in the order of the keys. -/
theorem eq_flatMap_filter_of_ascending {keys : List Text} (hasc : Ascending id keys)
    (hnodup : keys.Nodup) :
    ∀ {items : List α}, Ascending key items → (∀ a ∈ items, key a ∈ keys) →
      items = keys.flatMap fun k => items.filter fun a => key a == k := by
  induction keys with
  | nil =>
      intro items _ hmem
      cases items with
      | nil => rfl
      | cons a rest => cases hmem a List.mem_cons_self
  | cons k ks ih =>
      intro items h hmem
      obtain ⟨hk, hks⟩ := List.pairwise_cons.mp hasc
      obtain ⟨hkmem, hksnodup⟩ := List.nodup_cons.mp hnodup
      have hleast : ∀ a ∈ items, le k (key a) = true := by
        intro a ha
        rcases List.mem_cons.mp (hmem a ha) with heq | hin
        · rw [heq]
          exact le_refl k
        · exact hk (key a) hin
      -- what is left without the least key has its keys among the others
      have hothers : ∀ a ∈ items.filter fun a => !(key a == k), key a ∈ ks := by
        intro a ha
        obtain ⟨ha, hne⟩ := List.mem_filter.mp ha
        rcases List.mem_cons.mp (hmem a ha) with heq | hin
        · exact absurd heq (by simpa using hne)
        · exact hin
      have hrest := ih hks hksnodup (h.sublist List.filter_sublist) hothers
      have hpart : ∀ k' ∈ ks, ((items.filter fun a => !(key a == k)).filter
          fun a => key a == k') = items.filter fun a => key a == k' := by
        intro k' hk'
        rw [List.filter_filter]
        refine List.filter_congr ?_
        intro a _
        have hne : k' ≠ k := fun heq => hkmem (heq ▸ hk')
        by_cases hak : key a = k'
        · simp [hak, hne]
        · simp [hak]
      calc items
          = (items.filter fun a => key a == k) ++ items.filter fun a => !(key a == k) :=
            (filter_append_filter_of_ascending key k h hleast).symm
        _ = (items.filter fun a => key a == k)
              ++ ks.flatMap fun k' => items.filter fun a => key a == k' := by
            rw [hrest, List.flatMap_congr hpart]
        _ = (k :: ks).flatMap fun k' => items.filter fun a => key a == k' := rfl

/-- **GROUPING**: a stable sort puts together the parts of one key each, in the order of
    the keys, and leaves the order inside each part alone. -/
theorem mergeSort_key_eq_flatMap {keys : List Text} (hasc : Ascending id keys)
    (hnodup : keys.Nodup) {items : List α} (hmem : ∀ a ∈ items, key a ∈ keys) :
    items.mergeSort (fun a b => le (key a) (key b))
      = keys.flatMap fun k => items.filter fun a => key a == k := by
  have hsorted := ascending_mergeSort key items
  have hmem' : ∀ a ∈ items.mergeSort fun a b => le (key a) (key b), key a ∈ keys :=
    fun a ha => hmem a (List.mem_mergeSort.mp ha)
  rw [eq_flatMap_filter_of_ascending key hasc hnodup hsorted hmem']
  exact List.flatMap_congr fun k _ => filter_mergeSort_key key items k

/-- **THE PARTS DECIDE**: if the items of each key are some of those in another list, in the
    same order, then this is so for the sorted lists as a whole. -/
theorem sublist_mergeSort_of_filter {items all : List α}
    (h : ∀ k, (items.filter fun a => key a == k).Sublist (all.filter fun a => key a == k)) :
    (items.mergeSort fun a b => le (key a) (key b)).Sublist
      (all.mergeSort fun a b => le (key a) (key b)) := by
  -- both are put together from the parts of the keys of all
  have hasc : Ascending id ((all.map key).dedup.mergeSort le) := ascending_mergeSort id _
  have hnodup : ((all.map key).dedup.mergeSort le).Nodup :=
    (List.mergeSort_perm _ _).nodup_iff.mpr (List.nodup_dedup _)
  have hmem : ∀ a ∈ all, key a ∈ (all.map key).dedup.mergeSort le := fun a ha =>
    List.mem_mergeSort.mpr (List.mem_dedup.mpr (List.mem_map_of_mem ha))
  have hsub : ∀ a ∈ items, a ∈ all := by
    intro a ha
    have hpart : a ∈ items.filter fun b => key b == key a :=
      List.mem_filter.mpr ⟨ha, beq_self_eq_true _⟩
    exact (List.mem_filter.mp ((h (key a)).subset hpart)).1
  rw [mergeSort_key_eq_flatMap key hasc hnodup hmem,
    mergeSort_key_eq_flatMap key hasc hnodup fun a ha => hmem a (hsub a ha)]
  exact List.Sublist.flatMap_right _ fun k _ => h k

/-- **LEFT OUT BEFORE**: the other items come out of the sort in the order they have among
    all. -/
theorem sublist_mergeSort_key {items all : List α} (h : items.Sublist all) :
    (items.mergeSort fun a b => le (key a) (key b)).Sublist
      (all.mergeSort fun a b => le (key a) (key b)) :=
  sublist_mergeSort_of_filter key fun _ => h.filter _

/-- Lists with the same items of each key, in the same order, are sorted alike. -/
theorem mergeSort_eq_of_filter_eq {items others : List α}
    (h : ∀ k, (items.filter fun a => key a == k) = others.filter fun a => key a == k) :
    (items.mergeSort fun a b => le (key a) (key b))
      = others.mergeSort fun a b => le (key a) (key b) := by
  have hsub : ∀ k, (items.filter fun a => key a == k).Sublist
      (others.filter fun a => key a == k) := fun k => h k ▸ List.Sublist.refl _
  have hsub' : ∀ k, (others.filter fun a => key a == k).Sublist
      (items.filter fun a => key a == k) := fun k => h k ▸ List.Sublist.refl _
  exact (sublist_mergeSort_of_filter key hsub).antisymm (sublist_mergeSort_of_filter key hsub')

/-- **NEIGHBOURS** with different keys can change places before they are sorted. -/
theorem mergeSort_swap {a b : α} (hne : key a ≠ key b) (before after : List α) :
    ((before ++ b :: a :: after).mergeSort fun a b => le (key a) (key b))
      = (before ++ a :: b :: after).mergeSort fun a b => le (key a) (key b) := by
  refine mergeSort_eq_of_filter_eq key fun k => ?_
  rw [List.filter_append, List.filter_append]
  refine congrArg (before.filter _ ++ ·) ?_
  -- no more than one of the two has the key
  by_cases ha : key a = k
  · have hb : ¬ key b = k := fun hb => hne (ha.trans hb.symm)
    simp [ha, hb]
  · simp [List.filter_cons, ha]

/-! ## Places in a sorted list -/

/-- An item of a smaller key stands further in front. -/
theorem lt_of_ascending {items : List α} (h : Ascending key items) {i j : Nat} {a b : α}
    (ha : items[i]? = some a) (hb : items[j]? = some b) (hle : le (key a) (key b) = true)
    (hne : key a ≠ key b) : i < j := by
  obtain ⟨hi, rfl⟩ := List.getElem?_eq_some_iff.mp ha
  obtain ⟨hj, rfl⟩ := List.getElem?_eq_some_iff.mp hb
  rcases Nat.lt_trichotomy i j with hlt | rfl | hgt
  · exact hlt
  · exact absurd rfl hne
  · have hback := List.pairwise_iff_getElem.mp h j i hj hi hgt
    exact absurd (le_antisymm hle hback) hne

section Together

variable {p : α → Bool}

/-- Items that reach down to the least key stand at the front. -/
theorem filter_isPrefix_of_ascending :
    ∀ {items : List α}, Ascending key items →
      (∀ a ∈ items, ∀ b, le (key a) (key b) = true → p b = true → p a = true) →
      items.filter p <+: items := by
  intro items
  induction items with
  | nil => intro _ _; exact List.nil_prefix
  | cons a rest ih =>
      intro h hdown
      obtain ⟨ha, hrest⟩ := List.pairwise_cons.mp h
      obtain ⟨hdowna, hdownrest⟩ := List.forall_mem_cons.mp hdown
      by_cases hp : p a = true
      · rw [List.filter_cons_of_pos hp]
        exact List.cons_prefix_cons.mpr ⟨rfl, ih hrest hdownrest⟩
      · have hnone : (a :: rest).filter p = [] := by
          refine List.filter_eq_nil_iff.mpr fun b hb hpb => ?_
          rcases List.mem_cons.mp hb with rfl | hb
          · exact hp hpb
          · exact hp (hdowna b (ha b hb) hpb)
        rw [hnone]
        exact List.nil_prefix

/-- **TOGETHER**: items stand together in a sorted list if what has a key between theirs is
    one of them. -/
theorem filter_isInfix_of_ascending
    (hbetween : ∀ a b c, p a = true → p c = true → le (key a) (key b) = true →
      le (key b) (key c) = true → p b = true) :
    ∀ {items : List α}, Ascending key items → items.filter p <:+: items := by
  intro items
  induction items with
  | nil => intro _; exact List.nil_infix
  | cons a rest ih =>
      intro h
      obtain ⟨ha, hrest⟩ := List.pairwise_cons.mp h
      by_cases hp : p a = true
      · -- behind the first of them no other can come before the next
        have hfront : rest.filter p <+: rest :=
          filter_isPrefix_of_ascending key hrest fun b hb c hbc hpc =>
            hbetween a b c hp hpc (ha b hb) hbc
        rw [List.filter_cons_of_pos hp]
        exact (List.cons_prefix_cons.mpr ⟨rfl, hfront⟩).isInfix
      · rw [List.filter_cons_of_neg hp]
        exact (ih hrest).trans (List.suffix_cons a rest).isInfix

end Together

end NoteDigest.Text
