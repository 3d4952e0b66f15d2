import NoteDigest.Proofs.Files.Alike
import NoteDigest.Proofs.Summary.NormalForm
import NoteDigest.Proofs.Vault.Resilience

/-! # Repetition — how often a note is listed and summarised

    The list of notes is made from the ways down from the root, one reference for each way
    that leads to a file inside the root (`refOf?_eq_some_iff`).  It comes in the order of
    paths, and a note stands in it once for each way that reaches it.  So no note is listed
    twice exactly when no file is reached on two ways (`rising_notes_iff`), and then no
    occurrence gives two fragments (`listed_and_summarised_once`).

    A link inside the root with the name of a note is a second way to the note it leads to
    (`linkedVault_repeats`). -/

namespace NoteDigest

open NoteDigest.Path

/-! ## Ways down to plain places -/

namespace Files

variable {fs : Files} {names : List Name} {top : Place}

theorem hasDirectory_of_reaches (h : fs.reaches top names = true) :
    fs.hasDirectory top = true := by
  match names, h with
  | [_], h => exact (Bool.and_eq_true_iff.mp h).1
  | _ :: _ :: _, h => exact (Bool.and_eq_true_iff.mp h).1

/-- A way down leads to a plain place, unless a link is at its end. -/
theorem plain_of_reaches (hfs : fs.WellFormed) (hplain : fs.Plain top)
    (h : fs.reaches top names = true)
    (hlink : ∀ target, fs.get? (top ++ names) ≠ some (.link target)) :
    fs.Plain (top ++ names) := by
  induction names generalizing top with
  | nil => cases h
  | cons name rest ih =>
      have hname : IsName name := hfs.isName (isSome_of_reaches h).2 name (by simp)
      have hdir := hasDirectory_of_reaches h
      cases rest with
      | nil => exact hplain.down hdir hname.step (linkAt?_eq_none hlink)
      | cons next rest =>
          have hrest := (Bool.and_eq_true_iff.mp h).2
          rw [List.append_cons] at hlink ⊢
          -- the way goes on behind the name, so no link stands there
          have hnone : fs.linkAt? top name = none := by
            refine linkAt?_eq_none fun target htarget => ?_
            cases (hasDirectory_iff.mp (hasDirectory_of_reaches hrest)).symm.trans htarget
          exact ih (hplain.down hdir hname.step hnone) hrest hlink

end Files

namespace Vault

open Files

variable {vault : Vault} {fs : Files} {top place : Place} {names : List Name} {ref : NoteRef}
  {refs : List NoteRef} {source : Text} {layout : Layout}

/-! ## The ways to a note -/

/-- A way down from the root, to an entry with the name of a note, leads to the file at a place
    inside the root. -/
structure Reaches (vault : Vault) (fs : Files) (names : List Name) (place : Place) : Prop where
  way : ∃ top, fs.locate .follow vault.root = .ok ⟨top, some .directory⟩
    ∧ names ∈ ways fs top ∧ top <+: place
  file : ∃ bytes stamp, fs.locate .follow (vault.pathBelow names)
    = .ok ⟨place, some (.file bytes stamp)⟩

theorem Reaches.plain (h : vault.Reaches fs names place) (hfs : fs.WellFormed) :
    fs.Plain place := by
  obtain ⟨bytes, stamp, hfound⟩ := h.file
  obtain ⟨n, -, hleads, -⟩ := isGoal_of_locate hfound
  exact hleads.plain (hfs.plain_startOf vault.root)

theorem Reaches.isSome (h : vault.Reaches fs names place) : (fs.get? place).isSome = true := by
  obtain ⟨bytes, stamp, hfound⟩ := h.file
  obtain ⟨n, -, -, hentry⟩ := isGoal_of_locate hfound
  exact Option.isSome_of_eq_some hentry.symm

section Located

variable (hfound : fs.locate .follow vault.root = .ok ⟨top, some .directory⟩)

include hfound

/-- A way from the root leads from the place of the root. -/
theorem Reaches.below (h : vault.Reaches fs names place) :
    names ∈ ways fs top ∧ top <+: place := by
  obtain ⟨top', hfound', hway⟩ := h.way
  obtain rfl : top' = top := congrArg Spot.place (Except.ok.inj (hfound'.symm.trans hfound))
  exact hway

/-- The path of a note leads back to the place that is reached. -/
theorem Reaches.resolve (h : vault.Reaches fs names place) (hfs : fs.WellFormed) :
    vault.resolve fs (refAt top place).path = .ok place :=
  (rooted_of_locate hfound).resolve_refAt hfs (h.plain hfs) h.isSome (h.below hfound).2

/-- **ONE REFERENCE** for each way that reaches a file: the one to its place. -/
theorem refOf?_eq_some_iff (hfs : fs.WellFormed) (hway : names ∈ ways fs top) :
    vault.refOf? fs names = some ref
      ↔ ∃ place, vault.Reaches fs names place ∧ ref = refAt top place := by
  have hnames := isName_of_mem_descendants hfs (mem_descendants_of_mem_ways hway)
  constructor
  · intro h
    by_cases hfile : fs.isFile (vault.pathBelow names) = true
    · obtain ⟨place, bytes, stamp, hplace⟩ := isFile_iff.mp hfile
      rw [(rooted_of_locate hfound).refOf?_eq hfs hnames hplace] at h
      split at h
      · rename_i hbelow
        exact ⟨place, ⟨⟨top, hfound, hway, List.isPrefixOf_iff_prefix.mp hbelow⟩,
          bytes, stamp, hplace⟩, (Option.some.inj h).symm⟩
      · cases h
    · rw [refOf?, if_neg hfile] at h
      cases h
  · rintro ⟨place, hreaches, rfl⟩
    obtain ⟨bytes, stamp, hplace⟩ := hreaches.file
    rw [(rooted_of_locate hfound).refOf?_eq hfs hnames hplace,
      if_pos (List.isPrefixOf_iff_prefix.mpr (hreaches.below hfound).2)]

/-- **A NOTE IS LISTED** when some way reaches it. -/
theorem mem_refsOf_iff (hfs : fs.WellFormed) :
    ref ∈ vault.refsOf fs (ways fs top)
      ↔ ∃ names place, vault.Reaches fs names place ∧ ref = refAt top place := by
  rw [refsOf_eq, NoteRef.sort, List.mem_mergeSort, List.mem_filterMap]
  constructor
  · rintro ⟨names, hway, hsome⟩
    obtain ⟨place, hreaches, href⟩ := (refOf?_eq_some_iff hfound hfs hway).mp hsome
    exact ⟨names, place, hreaches, href⟩
  · rintro ⟨names, place, hreaches, href⟩
    have hway := (hreaches.below hfound).1
    exact ⟨names, hway, (refOf?_eq_some_iff hfound hfs hway).mpr ⟨place, hreaches, href⟩⟩

/-- A way down that ends at no link reaches the place that its names name. -/
theorem Reaches.own_or_link (hfs : fs.WellFormed) (h : vault.Reaches fs names place) :
    place = top ++ names ∨ ∃ target, fs.get? (top ++ names) = some (.link target) := by
  by_cases hlink : ∃ target, fs.get? (top ++ names) = some (.link target)
  · exact .inr hlink
  · left
    have hrooted := rooted_of_locate hfound
    have hreaches := mem_descendants_iff.mp (mem_descendants_of_mem_ways (h.below hfound).1)
    have hplain := plain_of_reaches hfs (hrooted.plain hfs) hreaches (not_exists.mp hlink)
    obtain ⟨bytes, stamp, hplace⟩ := h.file
    obtain ⟨n, -, hleads, -⟩ := isGoal_of_locate hplace
    obtain ⟨m, -, hbelow⟩ := hrooted.leads_below hleads
    exact (hbelow.unique hplain.leads_below).2

end Located

theorem nodup_ways (fs : Files) (top : Place) : (ways fs top).Nodup :=
  (nodup_eraseDups _).sublist List.filter_sublist

/-- **NO NOTE IS LISTED TWICE** exactly when no file is reached on two ways. -/
theorem rising_notes_iff (hfs : fs.WellFormed) (h : vault.notes fs = .ok refs) :
    Text.Rising NoteRef.path refs
      ↔ ∀ names names' place, vault.Reaches fs names place → vault.Reaches fs names' place →
          names = names' := by
  by_cases hroot : ∃ top, fs.locate .follow vault.root = .ok ⟨top, some .directory⟩
  · obtain ⟨top, hfound⟩ := hroot
    rw [((notes_eq_ok_iff hfound).mp h).2.2, refsOf_eq, NoteRef.sort,
      Text.rising_mergeSort_filterMap_iff NoteRef.path _ (nodup_ways fs top)]
    constructor
    · intro hapart names names' place hreaches hreaches'
      have hway := (hreaches.below hfound).1
      have hway' := (hreaches'.below hfound).1
      exact hapart names hway names' hway' (refAt top place)
        ((refOf?_eq_some_iff hfound hfs hway).mpr ⟨place, hreaches, rfl⟩) (refAt top place)
        ((refOf?_eq_some_iff hfound hfs hway').mpr ⟨place, hreaches', rfl⟩) rfl
    · -- references with one path lead to one place
      intro honce names hway names' hway' ref href ref' href' hpath
      obtain ⟨place, hreaches, rfl⟩ := (refOf?_eq_some_iff hfound hfs hway).mp href
      obtain ⟨place', hreaches', rfl⟩ := (refOf?_eq_some_iff hfound hfs hway').mp href'
      have hplace := hreaches.resolve hfound hfs
      rw [hpath, hreaches'.resolve hfound hfs] at hplace
      obtain rfl := Except.ok.inj hplace
      exact honce names names' place' hreaches hreaches'
  · -- without a directory at the root there is nothing to reach
    have hnone := notes_of_no_directory (not_exists.mp hroot)
    rw [h] at hnone
    split at hnone
    · cases hnone
    · obtain rfl : refs = [] := Except.ok.inj hnone
      refine iff_of_true List.Pairwise.nil ?_
      intro names names' place hreaches
      obtain ⟨top, hfound, -⟩ := hreaches.way
      exact absurd ⟨top, hfound⟩ hroot

/-- **WITHOUT LINKS** below the root that have the name of a note, no note is listed twice. -/
theorem rising_notes_of_no_link (hfs : fs.WellFormed) (h : vault.notes fs = .ok refs)
    (hlink : ∀ top names target, fs.locate .follow vault.root = .ok ⟨top, some .directory⟩ →
      hasNoteName names = true → fs.get? (top ++ names) ≠ some (.link target)) :
    Text.Rising NoteRef.path refs := by
  refine (rising_notes_iff hfs h).mpr ?_
  intro names names' place hreaches hreaches'
  obtain ⟨top, hfound, -⟩ := hreaches.way
  -- each way has the place for its end, so they have the same names
  have hown : ∀ {names}, vault.Reaches fs names place → place = top ++ names := by
    intro names hreaches
    have hname := (List.mem_filter.mp (hreaches.below hfound).1).2
    rcases hreaches.own_or_link hfound hfs with hplace | ⟨target, htarget⟩
    · exact hplace
    · exact absurd htarget (hlink top names target hfound hname)
  exact List.append_cancel_left ((hown hreaches).symm.trans (hown hreaches'))

/-! ## What a summary takes -/

/-- The occurrences that a summary takes fragments from, each with its note and its number
    there. -/
def drawn (vault : Vault) (fs : Files) (source : Text) : List (Note × Occurrence × Nat) :=
  (Query.ofSource source).drawn ((Query.ofSource source).select (vault.readableNotes fs))

/-- A summary is that of the readable notes, if there is one. -/
theorem eq_ofNotes_of_summary (hmemory : vault.memory = []) (hfs : fs.WellFormed)
    {found : Summary} (h : (vault.summary fs source layout).1 = .ok found) :
    found = Summary.ofNotes (vault.readableNotes fs) (Query.ofSource source) layout := by
  rcases (summary_isOk_iff hmemory hfs source layout).mp ⟨found, h⟩ with hempty | hall
  · have hnothing : (vault.summary fs source layout).1 = .ok .nothing :=
      Provider.summary_result_of_isEmpty hempty
    rw [Summary.ofNotes, if_pos hempty]
    exact Except.ok.inj (h.symm.trans hnothing)
  · exact Except.ok.inj (h.symm.trans (summary_eq hmemory hfs hall source layout))

/-- **THE MARKDOWN** is that of the fragments taken, one for each occurrence. -/
theorem markdown_eq_drawn (hmemory : vault.memory = []) (hfs : fs.WellFormed) {found : Summary}
    (h : (vault.summary fs source layout).1 = .ok found) :
    found.markdown = Fragment.aggregate
      ((vault.drawn fs source).map fun d => d.1.fragmentAt layout d.2.1) := by
  rw [eq_ofNotes_of_summary hmemory hfs h, markdown_ofNotes, summarize, drawn,
    ← fragments_eq_map_drawn]
  split
  · rename_i hempty
    rw [fragments_eq_flatMap]
    simp [draws_of_isEmpty hempty, Fragment.aggregate, Fragment.sort]
  · rfl

theorem refs_readableNotes (h : vault.notes fs = .ok refs) :
    ((vault.readableNotes fs).map Note.ref).Sublist refs := by
  rw [readableNotes_of_notes h, List.map_filterMap]
  have hsame : ∀ ref ∈ refs, ∀ found,
      (((vault.lines fs ref).toOption.map (Note.ofLines ref)).map Note.ref) = some found →
        found = ref := by
    intro ref _ found hfound
    obtain ⟨note, hnote, rfl⟩ := Option.map_eq_some_iff.mp hfound
    obtain ⟨lines, -, rfl⟩ := Option.map_eq_some_iff.mp hnote
    rfl
  clear h
  induction refs with
  | nil => exact List.Sublist.refl _
  | cons ref rest ih =>
      obtain ⟨href, hrest⟩ := List.forall_mem_cons.mp hsame
      rw [List.filterMap_cons]
      split
      · exact (ih hrest).cons ref
      · rename_i found hfound
        rw [href found hfound]
        exact (ih hrest).cons_cons ref

/-- **ONCE**: the list of notes is in the order of paths, and rises exactly when no file is
    reached on two ways, as in a vault where no link has the name of a note.  A summary takes
    its fragments from occurrences in listed notes, and when the list rises, it takes one at
    most from each occurrence in each note. -/
theorem listed_and_summarised_once (hfs : fs.WellFormed) (hmemory : vault.memory = [])
    (h : vault.notes fs = .ok refs) :
    Text.Ascending NoteRef.path refs
      ∧ (Text.Rising NoteRef.path refs
          ↔ ∀ names names' place, vault.Reaches fs names place →
              vault.Reaches fs names' place → names = names')
      ∧ ((∀ top names target, fs.locate .follow vault.root = .ok ⟨top, some .directory⟩ →
            hasNoteName names = true → fs.get? (top ++ names) ≠ some (.link target)) →
          Text.Rising NoteRef.path refs)
      ∧ ∀ source layout found, (vault.summary fs source layout).1 = .ok found →
          found.markdown = Fragment.aggregate
              ((vault.drawn fs source).map fun d => d.1.fragmentAt layout d.2.1)
            ∧ (∀ d ∈ vault.drawn fs source,
                d.1.ref ∈ refs ∧ d.1.occurrences[d.2.2]? = some d.2.1)
            ∧ (Text.Rising NoteRef.path refs →
                ((vault.drawn fs source).map fun d => (d.1.path, d.2.2)).Nodup) := by
  have hascending : Text.Ascending NoteRef.path refs := by
    rw [← sort_notes h]
    exact Text.ascending_mergeSort NoteRef.path refs
  refine ⟨hascending, rising_notes_iff hfs h, rising_notes_of_no_link hfs h, ?_⟩
  intro source layout found hfound
  have hselected : (((Query.ofSource source).select (vault.readableNotes fs)).map
      Note.ref).Sublist refs :=
    (List.filter_sublist.map Note.ref).trans (refs_readableNotes h)
  refine ⟨markdown_eq_drawn hmemory hfs hfound, ?_, ?_⟩
  · intro d hd
    obtain ⟨hnote, hoccurrence⟩ := mem_drawn hd
    exact ⟨hselected.subset (List.mem_map_of_mem hnote), hoccurrence⟩
  · intro hrising
    refine nodup_drawn _ ?_
    have hpaths := ((Text.rising_iff_nodup NoteRef.path hascending).mp hrising).sublist
      (hselected.map NoteRef.path)
    rwa [List.map_map] at hpaths

/-- A vault with a note in a folder, a link to it without the name of a note, and a link with
    the name of a note that leads to a note beside the vault. -/
def borderedVault : Files :=
  ⟨[(["vault".toList], .directory),
    (["vault".toList, ['d']], .directory),
    (["vault".toList, ['d'], "own.md".toList], .file (Text.toUtf8 "own #t\n".toList) (.clock 1)),
    (["vault".toList, ['l']], .link "d/own.md".toList),
    (["vault".toList, "out.md".toList], .link "../out.md".toList),
    (["out.md".toList], .file (Text.toUtf8 "out #t\n".toList) (.clock 1))],
   []⟩

/-- The note is listed once, and one fragment comes of its one occurrence. -/
theorem borderedVault_rises :
    borderedVault.WellFormed
      ∧ (ofText "vault".toList).notes borderedVault
        = .ok [⟨"d/own.md".toList, "own".toList⟩]
      ∧ ∃ found, ((ofText "vault".toList).summary borderedVault "tags: #t".toList
          ⟨false, false⟩).1 = .ok found
        ∧ found.markdown = "own #t\n\n\n".toList
        ∧ (((ofText "vault".toList).drawn borderedVault "tags: #t".toList).map
            fun d => (d.1.path, d.2.2)).Nodup := by
  have hfs : borderedVault.WellFormed := ⟨by decide +kernel, by decide, plain_nil _, rfl⟩
  have hnotes : (ofText "vault".toList).notes borderedVault
      = .ok [⟨"d/own.md".toList, "own".toList⟩] :=
    notes_of_ascending rfl (by decide +kernel) (by decide +kernel)
      (show List.Pairwise _ _ from by decide)
  have hall : (ofText "vault".toList).AllConvert borderedVault := ⟨_, hnotes, by decide +kernel⟩
  obtain ⟨-, -, -, honce⟩ := listed_and_summarised_once hfs rfl hnotes
  have hfound := summary_eq rfl hfs hall "tags: #t".toList ⟨false, false⟩
  obtain ⟨hmarkdown, -, hnodup⟩ := honce _ _ _ hfound
  refine ⟨hfs, hnotes, _, hfound, ?_, hnodup (List.pairwise_singleton _ _)⟩
  rw [hmarkdown, drawn, readableNotes_of_notes hnotes, Fragment.aggregate, Fragment.sort,
    List.mergeSort_of_pairwise (by decide +kernel)]
  decide +kernel

/-- A vault with a note, and a link with the name of a note that leads to it. -/
def linkedVault : Files :=
  ⟨[(["vault".toList], .directory),
    (["vault".toList, "own.md".toList], .file (Text.toUtf8 "own #t\n".toList) (.clock 1)),
    (["vault".toList, "link.md".toList], .link "own.md".toList)],
   []⟩

/-- **A SECOND WAY**: the note is listed twice, and its one occurrence comes out twice. -/
theorem linkedVault_repeats :
    linkedVault.WellFormed
      ∧ (ofText "vault".toList).notes linkedVault
        = .ok [⟨"own.md".toList, "own".toList⟩, ⟨"own.md".toList, "own".toList⟩]
      ∧ ¬ Text.Rising NoteRef.path
        [(⟨"own.md".toList, "own".toList⟩ : NoteRef), ⟨"own.md".toList, "own".toList⟩]
      ∧ ((ofText "vault".toList).summary linkedVault "tags: #t".toList ⟨false, false⟩).1.map
          Summary.markdown = .ok "own #t\n\n\nown #t\n\n\n".toList := by
  have hfs : linkedVault.WellFormed := ⟨by decide +kernel, by decide, plain_nil _, rfl⟩
  have hnotes : (ofText "vault".toList).notes linkedVault
      = .ok [⟨"own.md".toList, "own".toList⟩, ⟨"own.md".toList, "own".toList⟩] :=
    notes_of_ascending rfl (by decide +kernel) (by decide +kernel)
      (show List.Pairwise _ _ from by decide)
  have hall : (ofText "vault".toList).AllConvert linkedVault := ⟨_, hnotes, by decide +kernel⟩
  have hfound := summary_eq rfl hfs hall "tags: #t".toList ⟨false, false⟩
  refine ⟨hfs, hnotes, fun h => (List.rel_of_pairwise_cons h List.mem_cons_self).2 rfl, ?_⟩
  rw [hfound]
  show Except.ok (Summary.markdown _) = _
  rw [markdown_eq_drawn rfl hfs hfound, drawn, readableNotes_of_notes hnotes, Fragment.aggregate,
    Fragment.sort, List.mergeSort_of_pairwise (by decide +kernel)]
  decide +kernel

end Vault
end NoteDigest
