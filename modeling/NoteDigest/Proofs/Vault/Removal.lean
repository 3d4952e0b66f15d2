import NoteDigest.Proofs.Files.Erasing
import NoteDigest.Proofs.Vault.Reading

/-! # Removal — the vault without one note

    When the file of a listed note is erased, the list loses the references to it and
    keeps the others (`notes_erase`), and those are read as before (`lines_erase`). -/

namespace NoteDigest.Vault

open NoteDigest.Path Files

variable {vault : Vault} {fs : Files} {top place gone : Place} {names : List Name} {n : Nat}
  {ref other : NoteRef} {refs : List NoteRef} {bytes : ByteArray} {stamp : Stamp}

theorem Rooted.erase (h : vault.Rooted fs top)
    (hfile : fs.get? gone = some (.file bytes stamp)) : vault.Rooted (fs.erase gone) top := by
  obtain ⟨n, hn, hleads⟩ := h.leads
  exact ⟨⟨n, hn, (leads_erase_iff hfile).mpr hleads⟩,
    (hasDirectory_erase hfile top).trans h.directory⟩

/-- A note whose file is another one is read as before. -/
theorem lines_erase (h : vault.Rooted fs top) (hfs : fs.WellFormed)
    (hfile : fs.get? gone = some (.file bytes stamp)) (hbelow : top <+: place)
    (hholds : vault.Holds fs (refAt top place) place) (hne : place ≠ gone) :
    vault.lines (fs.erase gone) (refAt top place) = vault.lines fs (refAt top place) := by
  obtain ⟨found, time, hplace⟩ := hholds.file
  have hpresent : ((fs.erase gone).get? place).isSome = true := by
    rw [get?_erase_of_ne hfile hne, hplace]
    rfl
  have hresolved := (h.erase hfile).resolve_refAt (hfs.erase (hasDirectory_of_file hfile))
    ((plain_erase_iff hfile).mpr hholds.plain) hpresent hbelow
  rw [lines_eq hholds.resolved, lines_eq hresolved, Files.read, Files.read,
    stat_erase hfile hholds.plain hne]

/-! ## The list -/

/-- Different places below the root have different paths. -/
theorem Rooted.place_eq_of_path_eq (h : vault.Rooted fs top) (hfs : fs.WellFormed)
    (hplain : fs.Plain place) (hpresent : (fs.get? place).isSome = true) (hbelow : top <+: place)
    (hgone : vault.Holds fs (refAt top gone) gone)
    (hpath : (refAt top place).path = (refAt top gone).path) : place = gone := by
  have hresolved := h.resolve_refAt hfs hplain hpresent hbelow
  rw [hpath, hgone.resolved] at hresolved
  exact (Except.ok.inj hresolved).symm

/-- **ONE WAY DOWN** gives the same reference as before, unless it is to the note removed. -/
theorem Rooted.refOf?_erase (h : vault.Rooted fs top) (hfs : fs.WellFormed)
    (hfile : fs.get? gone = some (.file bytes stamp)) (hbelow : top <+: gone)
    (hgone : vault.Holds fs (refAt top gone) gone) (hnames : ∀ name ∈ names, IsName name) :
    vault.refOf? (fs.erase gone) names
      = (vault.refOf? fs names).filter fun ref => ref.path != (refAt top gone).path := by
  by_cases hisFile : fs.isFile (vault.pathBelow names) = true
  · obtain ⟨place, found, time, hfound⟩ := isFile_iff.mp hisFile
    have hsame := h.refOf?_eq hfs hnames hfound
    by_cases hplace : place = gone
    · -- the way led to the file itself, maybe through a link
      have hlost : ¬ (fs.erase gone).isFile (vault.pathBelow names) = true := by
        rw [isFile_erase_iff hfile]
        rintro ⟨place', found', time', hfound', hne⟩
        rw [hfound] at hfound'
        exact hne ((congrArg Spot.place (Except.ok.inj hfound')).symm.trans hplace)
      rw [hsame, refOf?, if_neg hlost, hplace, if_pos (List.isPrefixOf_iff_prefix.mpr hbelow)]
      simp [Option.filter_some]
    · -- the way leads to another file, whose reference has another path
      have hfound' := locate_erase_of_ok hfile hfound
      rw [if_neg hplace] at hfound'
      rw [hsame, (h.erase hfile).refOf?_eq (hfs.erase (hasDirectory_of_file hfile)) hnames hfound']
      split
      · rename_i hprefix
        obtain ⟨n, -, hleads, hentry⟩ := isGoal_of_locate hfound
        have hne : (refAt top place).path ≠ (refAt top gone).path := fun hpath =>
          hplace (h.place_eq_of_path_eq hfs (hleads.plain (hfs.plain_startOf vault.root))
            (Option.isSome_of_eq_some hentry.symm) (List.isPrefixOf_iff_prefix.mp hprefix) hgone
            hpath)
        simp [Option.filter_some, hne]
      · rfl
  · have hisFile' : ¬ (fs.erase gone).isFile (vault.pathBelow names) = true := by
      rw [isFile_erase_iff hfile]
      rintro ⟨place, found, time, hfound, -⟩
      exact hisFile (isFile_iff.mpr ⟨_, _, _, hfound⟩)
    rw [refOf?, refOf?, if_neg hisFile, if_neg hisFile']
    rfl

/-- The way to the note itself gives nothing any more. -/
theorem Rooted.refOf?_gone (h : vault.Rooted fs top)
    (hfile : fs.get? (top ++ names) = some (.file bytes stamp))
    (hplain : fs.Plain (top ++ names)) :
    vault.refOf? (fs.erase (top ++ names)) names = none := by
  rw [refOf?, if_neg]
  rw [isFile_erase_iff hfile]
  rintro ⟨place, found, time, hfound, hne⟩
  obtain ⟨n, -, hleads, -⟩ := isGoal_of_locate hfound
  obtain ⟨m, -, hway⟩ := h.leads_below hleads
  exact hne (hway.unique hplain.leads_below).2

/-- **THE REFERENCES** are those from before, without those to the note removed. -/
theorem Rooted.refsOf_erase (h : vault.Rooted fs top) (hfs : fs.WellFormed)
    (hfile : fs.get? gone = some (.file bytes stamp)) (hbelow : top <+: gone)
    (hgone : vault.Holds fs (refAt top gone) gone) :
    vault.refsOf (fs.erase gone) (ways (fs.erase gone) top)
      = (vault.refsOf fs (ways fs top)).filter
          fun ref => ref.path != (refAt top gone).path := by
  have hways : (ways (fs.erase gone) top).filterMap (vault.refOf? (fs.erase gone))
      = ((ways fs top).filterMap (vault.refOf? fs)).filter
          fun ref => ref.path != (refAt top gone).path := by
    rw [ways, ways, descendants_erase hfile, List.filter_comm, List.filterMap_filter,
      List.filter_filterMap]
    refine List.filterMap_congr fun names hnames => ?_
    have hproper := isName_of_mem_descendants hfs (mem_descendants_of_mem_ways hnames)
    rw [← h.refOf?_erase hfs hfile hbelow hgone hproper]
    by_cases hway : top ++ names = gone
    · subst hway
      rw [h.refOf?_gone hfile hgone.plain]
      split <;> rfl
    · rw [if_pos (by simpa using hway)]
  rw [refsOf_eq, refsOf_eq, hways]
  -- references are told apart by their paths, so they can be chosen before they are sorted
  refine (Text.filter_mergeSort NoteRef.path ?_ _).symm
  intro a ha b hb hpath
  obtain ⟨place, rfl, hbelow, hholds⟩ := h.mem_refsOf hfs
    (fun _ => mem_descendants_of_mem_ways)
    (by rw [refsOf_eq]; exact List.mem_mergeSort.mpr ha)
  obtain ⟨place', rfl, hbelow', hholds'⟩ := h.mem_refsOf hfs
    (fun _ => mem_descendants_of_mem_ways)
    (by rw [refsOf_eq]; exact List.mem_mergeSort.mpr hb)
  have hsame := hholds.resolved
  rw [hpath, hholds'.resolved] at hsame
  rw [Except.ok.inj hsame]

/-- What is the case with no way down is so with none in the smaller tree. -/
theorem any_descendants_erase (hfile : fs.get? gone = some (.file bytes stamp))
    {p : List Name → Bool} (h : (fs.descendants top).any p = false) :
    ((fs.erase gone).descendants top).any p = false := by
  rw [descendants_erase hfile, List.any_eq_false]
  exact fun names hnames => List.any_eq_false.mp h names (List.mem_filter.mp hnames).1

theorem nestsTooDeep_erase (hfile : fs.get? gone = some (.file bytes stamp))
    (h : nestsTooDeep fs top = false) : nestsTooDeep (fs.erase gone) top = false := by
  simp only [nestsTooDeep, isFolder, hasDirectory_erase hfile]
  exact any_descendants_erase hfile h

theorem anyOverlong_erase (hfile : fs.get? gone = some (.file bytes stamp))
    (h : vault.anyOverlong fs top = false) : vault.anyOverlong (fs.erase gone) top = false := by
  simp only [anyOverlong, isFolder, hasDirectory_erase hfile, isOverlong_erase hfile]
  exact any_descendants_erase hfile h

/-- **THE LIST** of a vault without one note: the references to other notes are kept, and
    those notes are read as before. -/
theorem notes_erase (hfs : fs.WellFormed) (h : vault.notes fs = .ok refs) (href : ref ∈ refs)
    (hholds : vault.Holds fs ref gone) :
    vault.notes (fs.erase gone) = .ok (refs.filter (·.path != ref.path))
      ∧ ∀ other ∈ refs, other.path ≠ ref.path →
          vault.lines (fs.erase gone) other = vault.lines fs other := by
  obtain ⟨bytes, stamp, hfile⟩ := hholds.file
  obtain ⟨top, hfound, rfl⟩ := listed_of_mem_notes h href
  have hroot := rooted_of_locate hfound
  have hmem : ∀ names ∈ ways fs top, names ∈ fs.descendants top :=
    fun _ => mem_descendants_of_mem_ways
  obtain ⟨place, rfl, hbelow, hholds'⟩ := hroot.mem_refsOf hfs hmem href
  obtain rfl := Except.ok.inj (hholds.resolved.symm.trans hholds'.resolved)
  constructor
  · obtain ⟨hroom, hshort, -⟩ := (notes_eq_ok_iff hfound).mp h
    have hfound' : (fs.erase gone).locate .follow vault.root = .ok ⟨top, some .directory⟩ := by
      rw [locate_erase_of_ok hfile hfound,
        if_neg (ne_of_hasDirectory (hasDirectory_of_file hfile) hroot.directory)]
    exact (notes_eq_ok_iff hfound').mpr ⟨nestsTooDeep_erase hfile hroom,
      anyOverlong_erase hfile hshort, (hroot.refsOf_erase hfs hfile hbelow hholds).symm⟩
  · intro other hother hne
    obtain ⟨place, rfl, hbelow', hother'⟩ := hroot.mem_refsOf hfs hmem hother
    refine lines_erase hroot hfs hfile hbelow' hother' ?_
    rintro rfl
    exact hne rfl

end NoteDigest.Vault
