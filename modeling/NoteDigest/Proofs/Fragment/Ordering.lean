import NoteDigest.Fragment.Basic
import NoteDigest.Proofs.Tag.Hierarchy
import NoteDigest.Proofs.Text.Sorting

/-! # Ordering — fragments follow the hierarchy of their tags

    Fragments are sorted by their tags, character by character.  A tag comes before its
    descendants in this order, and these stand together, for they begin alike.  They need
    not follow the tag at once: `#a-b` comes between `#a` and `#a/b`, because a hyphen comes
    before a slash.

    Fragments of one tag stay in the order in which they were taken, and that of fragments
    with different tags makes no difference (`aggregate_follows_hierarchy`). -/

namespace NoteDigest.Fragment

open Tag

variable {fragments : List Fragment} {tag : Tag} {a b : Fragment}

theorem sort_perm (fragments : List Fragment) : (sort fragments).Perm fragments :=
  List.mergeSort_perm fragments _

theorem ascending_sort (fragments : List Fragment) :
    Text.Ascending Fragment.tag (sort fragments) :=
  Text.ascending_mergeSort Fragment.tag fragments

/-! ## A tag and its descendants -/

/-- **A TAG COMES BEFORE** its strict descendants. -/
theorem lt_of_isAbove {i j : Nat} (ha : (sort fragments)[i]? = some a)
    (hb : (sort fragments)[j]? = some b) (htag : a.tag = tag) (habove : isAbove tag b.tag = true) :
    i < j := by
  subst htag
  refine Text.lt_of_ascending Fragment.tag (ascending_sort fragments) ha hb ?_
    (ne_of_isAbove habove).symm
  obtain ⟨rest, hrest⟩ := isAbove_iff.mp habove
  rw [← hrest, List.append_assoc]
  exact Text.le_append a.tag _

/-- **STRICT DESCENDANTS** of a tag stand together. -/
theorem descendants_together (fragments : List Fragment) (tag : Tag) :
    (sort fragments).filter (fun f => isAbove tag f.tag) <:+: sort fragments := by
  refine Text.filter_isInfix_of_ascending Fragment.tag ?_ (ascending_sort fragments)
  intro a b c ha hc hab hbc
  rw [isAbove_iff] at ha hc ⊢
  exact Text.isPrefix_of_between ha hc hab hbc

/-! ## The order before sorting -/

theorem filter_sort (fragments : List Fragment) (tag : Tag) :
    (sort fragments).filter (fun f => f.tag == tag) = fragments.filter fun f => f.tag == tag :=
  Text.filter_mergeSort_key Fragment.tag fragments tag

theorem sort_swap (hne : a.tag ≠ b.tag) (before after : List Fragment) :
    sort (before ++ b :: a :: after) = sort (before ++ a :: b :: after) :=
  Text.mergeSort_swap Fragment.tag hne before after

/-- **THE ORDER OF FRAGMENTS**: their texts are put together in an order in which

    * every fragment of a tag comes before all of its strict descendants;
    * the fragments of its strict descendants stand together;
    * the fragments of the tag are in the order in which they were taken.

    Two neighbours with different tags can change places beforehand. -/
theorem aggregate_follows_hierarchy (fragments : List Fragment) (tag : Tag) :
    aggregate fragments = (sort fragments).flatMap (·.text)
      ∧ (sort fragments).Perm fragments
      ∧ (∀ (i j : Nat) (a b : Fragment), (sort fragments)[i]? = some a →
          (sort fragments)[j]? = some b → a.tag = tag → isAbove tag b.tag = true → i < j)
      ∧ (sort fragments).filter (fun f => isAbove tag f.tag) <:+: sort fragments
      ∧ (sort fragments).filter (fun f => f.tag == tag) = fragments.filter (fun f => f.tag == tag)
      ∧ ∀ before a b after, fragments = before ++ a :: b :: after → a.tag ≠ b.tag →
          aggregate (before ++ b :: a :: after) = aggregate fragments := by
  refine ⟨rfl, sort_perm fragments, ?_, descendants_together fragments tag,
    filter_sort fragments tag, ?_⟩
  · intro i j a b ha hb htag habove
    exact lt_of_isAbove ha hb htag habove
  · intro before a b after hfragments hne
    rw [hfragments, aggregate, aggregate, sort_swap hne]

/-- Two fragments of `#a`, one of a descendant of it, and one of `#a-b`. -/
def plantFragments : List Fragment :=
  [⟨"first, ".toList, "#a".toList⟩, ⟨"second, ".toList, "#a".toList⟩,
   ⟨"below".toList, "#a/b".toList⟩, ⟨"beside, ".toList, "#a-b".toList⟩]

/-- The same fragments, sorted. -/
def sortedPlants : List Fragment :=
  [⟨"first, ".toList, "#a".toList⟩, ⟨"second, ".toList, "#a".toList⟩,
   ⟨"beside, ".toList, "#a-b".toList⟩, ⟨"below".toList, "#a/b".toList⟩]

theorem sort_plantFragments : sort plantFragments = sortedPlants := by
  have hswap : sort plantFragments = sort sortedPlants :=
    sort_swap (by decide) (sortedPlants.take 2) []
  rw [hswap]
  exact List.mergeSort_of_pairwise (by decide)

/-- The fragment of the descendant comes last, and the one of `#a-b` stands between it and the
    two of `#a`; it makes no difference that it was taken later. -/
theorem plants_in_order :
    (sort plantFragments)[1]? = some ⟨"second, ".toList, "#a".toList⟩
      ∧ (sort plantFragments)[3]? = some ⟨"below".toList, "#a/b".toList⟩
      ∧ isAbove "#a".toList "#a/b".toList = true ∧ 1 < 3
      ∧ aggregate plantFragments = "first, second, beside, below".toList
      ∧ aggregate sortedPlants = aggregate plantFragments := by
  obtain ⟨htexts, -, hbefore, -, -, hswap⟩ :=
    aggregate_follows_hierarchy plantFragments "#a".toList
  have hsecond : (sort plantFragments)[1]? = some ⟨"second, ".toList, "#a".toList⟩ := by
    rw [sort_plantFragments]
    rfl
  have hbelow : (sort plantFragments)[3]? = some ⟨"below".toList, "#a/b".toList⟩ := by
    rw [sort_plantFragments]
    rfl
  refine ⟨hsecond, hbelow, by decide, hbefore 1 3 _ _ hsecond hbelow rfl (by decide), ?_, ?_⟩
  · rw [htexts, sort_plantFragments]
    decide
  · exact hswap (plantFragments.take 2) _ _ [] rfl (by decide)

end NoteDigest.Fragment
