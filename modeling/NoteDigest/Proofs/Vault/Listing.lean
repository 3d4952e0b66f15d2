import NoteDigest.Proofs.Files.WellFormed
import NoteDigest.Proofs.Text.Sorting

/-! # Listing — what stands behind the references of a vault

    `Vault.notes` lists the references to files below the root.  In a well-formed tree each
    of them resolves to the plain place of a file (`holds_of_mem_notes`), so whatever fails
    when a note is loaded is about the content of its file.  Listing itself fails exactly if
    a path is too long, or folders stand too deep in one another (`unlisted_iff`). -/

namespace NoteDigest.Vault

open NoteDigest.Path Files

variable {vault : Vault} {fs : Files} {top place : Place} {names : List Name} {n : Nat}
  {ref : NoteRef} {refs : List NoteRef}

/-- What succeeds has gone on with what its first part gave. -/
theorem exists_of_bind_ok {α β : Type} {result : Except Fault α} {next : α → Except Fault β}
    {value : β} (h : result >>= next = .ok value) :
    ∃ found, result = .ok found ∧ next found = .ok value := by
  cases result with
  | error fault => cases h
  | ok found => exact ⟨found, rfl, h⟩

/-! ## The root -/

/-- The root of the vault is the directory at a place. -/
structure Rooted (vault : Vault) (fs : Files) (top : Place) : Prop where
  leads : ∃ n, n ≤ maxHops ∧ fs.Leads (fs.startOf vault.root) vault.root.names n top
  directory : fs.hasDirectory top = true

namespace Rooted

theorem isSome (h : vault.Rooted fs top) : (fs.get? top).isSome = true := by
  rw [hasDirectory_iff.mp h.directory]
  rfl

theorem plain (h : vault.Rooted fs top) (hfs : fs.WellFormed) : fs.Plain top := by
  obtain ⟨n, -, hleads⟩ := h.leads
  exact hleads.plain (hfs.plain_startOf vault.root)

theorem rootPlace (h : vault.Rooted fs top) (hfs : fs.WellFormed) :
    vault.rootPlace fs = .ok top := by
  obtain ⟨n, hn, hleads⟩ := h.leads
  exact placeOf_of_leads hfs hleads hn h.isSome

/-- **PATHS BELOW THE ROOT** stand for what they lead to, unless that is elsewhere. -/
theorem resolve_namesText (h : vault.Rooted fs top) (hfs : fs.WellFormed)
    (hnames : ∀ name ∈ names, IsName name) (hleads : fs.Leads top names n place)
    (hn : n ≤ maxHops) (hplace : (fs.get? place).isSome = true) :
    vault.resolve fs (namesText names)
      = if top.isPrefixOf place then .ok place else .error (.outside (namesText names)) := by
  have hjoined : fs.placeOf ((toPlace top).join (parse (namesText names))) = .ok place := by
    rw [join_parse_namesText hnames]
    exact placeOf_of_leads hfs ((h.plain hfs).leads.append hleads) (by omega) hplace
  rw [resolve, h.rootPlace hfs]
  show (do let place ← fs.placeOf ((toPlace top).join (parse (namesText names))); _) = _
  rw [hjoined]
  rfl

/-- The reference to a plain place below the root leads back to it. -/
theorem resolve_refAt (h : vault.Rooted fs top) (hfs : fs.WellFormed) (hplain : fs.Plain place)
    (hplace : (fs.get? place).isSome = true) (hbelow : top <+: place) :
    vault.resolve fs (refAt top place).path = .ok place := by
  obtain ⟨names, rfl⟩ := hbelow
  have hpath : (refAt top (top ++ names)).path = namesText names := by
    rw [refAt, List.drop_left]
  have hnames : ∀ name ∈ names, IsName name := fun name hname =>
    hfs.isName hplace name (List.mem_append_right _ hname)
  rw [hpath, h.resolve_namesText hfs hnames hplain.leads_below (Nat.zero_le _) hplace,
    if_pos (by simp)]

/-- The way to what is below the root leads through the root. -/
theorem leads_below (h : vault.Rooted fs top)
    (hleads : fs.Leads (fs.startOf (vault.pathBelow names)) (vault.pathBelow names).names n place) :
    ∃ m, m ≤ n ∧ fs.Leads top names m place := by
  have hjoined : fs.Leads (fs.startOf vault.root) (vault.root.names ++ names) n place := hleads
  obtain ⟨n₁, mid, n₂, hroot, hbelow, hsum⟩ := hjoined.split rfl
  obtain ⟨m, -, hroot'⟩ := h.leads
  obtain ⟨-, rfl⟩ := hroot.unique hroot'
  exact ⟨n₂, by omega, hbelow⟩

end Rooted

/-! ## The ways down -/

theorem isName_of_mem_descendants (hfs : fs.WellFormed) (h : names ∈ fs.descendants top) :
    ∀ name ∈ names, IsName name := by
  rw [descendants, List.mem_eraseDups, List.mem_filter, List.mem_filterMap] at h
  obtain ⟨⟨⟨place, entry⟩, hentry, hbelow⟩, -⟩ := h
  intro name hname
  simp only [below?] at hbelow
  split at hbelow
  · rw [← Option.some.inj hbelow] at hname
    exact hfs.names (place, entry) hentry name (List.mem_of_mem_drop hname)
  · cases hbelow

/-! ## References -/

theorem Rooted.refFor_namesText (h : vault.Rooted fs top) (hfs : fs.WellFormed)
    (hnames : ∀ name ∈ names, IsName name) (hleads : fs.Leads top names n place)
    (hn : n ≤ maxHops) (hplace : (fs.get? place).isSome = true) :
    vault.refFor fs (namesText names)
      = if top.isPrefixOf place then .ok (refAt top place)
        else .error (.outside (namesText names)) := by
  rw [refFor, h.resolve_namesText hfs hnames hleads hn hplace]
  by_cases hbelow : top.isPrefixOf place = true
  · rw [if_pos hbelow, if_pos hbelow]
    show (do return refAt (← vault.rootPlace fs) place) = _
    rw [h.rootPlace hfs]
    rfl
  · rw [if_neg hbelow, if_neg hbelow]
    rfl

/-- The reference that a way down gives, if it leads to a file inside the root. -/
def refOf? (vault : Vault) (fs : Files) (names : List Name) : Option NoteRef :=
  if fs.isFile (vault.pathBelow names) then (vault.refFor fs (namesText names)).toOption
  else none

theorem refsOf_eq (vault : Vault) (fs : Files) (ways : List (List Name)) :
    vault.refsOf fs ways = NoteRef.sort (ways.filterMap (vault.refOf? fs)) := by
  rw [refsOf]
  show NoteRef.sort ((ways.filter fun names => fs.isFile (vault.pathBelow names)).filterMap
    fun names => (vault.refFor fs (namesText names)).toOption) = _
  rw [List.filterMap_filter]
  rfl

/-- **ONE WAY DOWN** gives the reference to the plain place that it leads to. -/
theorem Rooted.refOf?_eq (h : vault.Rooted fs top) (hfs : fs.WellFormed)
    (hnames : ∀ name ∈ names, IsName name) {bytes : ByteArray} {stamp : Stamp}
    (hfound : fs.locate .follow (vault.pathBelow names)
      = .ok ⟨place, some (.file bytes stamp)⟩) :
    vault.refOf? fs names = if top.isPrefixOf place then some (refAt top place) else none := by
  have hfile : fs.isFile (vault.pathBelow names) = true := isFile_iff.mpr ⟨_, _, _, hfound⟩
  obtain ⟨n, hn, hleads, hentry⟩ := isGoal_of_locate hfound
  obtain ⟨m, hmn, hway⟩ := h.leads_below hleads
  have hpresent : (fs.get? place).isSome = true := by rw [← hentry]; rfl
  rw [refOf?, if_pos hfile, h.refFor_namesText hfs hnames hway (Nat.le_trans hmn hn) hpresent]
  split <;> rfl

/-- The file of a note stands at a plain place, to which its path leads. -/
structure Holds (vault : Vault) (fs : Files) (ref : NoteRef) (place : Place) : Prop where
  resolved : vault.resolve fs ref.path = .ok place
  plain : fs.Plain place
  file : ∃ bytes stamp, fs.get? place = some (.file bytes stamp)

/-- **LISTED NOTES**: the references are those to the files that the ways down lead to,
    inside the root. -/
theorem Rooted.mem_refsOf (h : vault.Rooted fs top) (hfs : fs.WellFormed)
    {ways : List (List Name)} (hways : ∀ names ∈ ways, names ∈ fs.descendants top)
    (href : ref ∈ vault.refsOf fs ways) :
    ∃ place, ref = refAt top place ∧ top <+: place ∧ vault.Holds fs ref place := by
  rw [refsOf_eq, NoteRef.sort, List.mem_mergeSort, List.mem_filterMap] at href
  obtain ⟨names, hway, hsome⟩ := href
  have hproper := isName_of_mem_descendants hfs (hways names hway)
  by_cases hfile : fs.isFile (vault.pathBelow names) = true
  · obtain ⟨place, bytes, stamp, hfound⟩ := isFile_iff.mp hfile
    rw [h.refOf?_eq hfs hproper hfound] at hsome
    split at hsome
    · rename_i hprefix
      obtain rfl : refAt top place = ref := Option.some.inj hsome
      obtain ⟨n, -, hleads, hentry⟩ := isGoal_of_locate hfound
      have hbelow := List.isPrefixOf_iff_prefix.mp hprefix
      have hplain : fs.Plain place := hleads.plain (hfs.plain_startOf vault.root)
      have hpresent := Option.isSome_of_eq_some hentry.symm
      exact ⟨place, rfl, hbelow, h.resolve_refAt hfs hplain hpresent hbelow, hplain, bytes,
        stamp, hentry.symm⟩
    · cases hsome
  · rw [refOf?, if_neg hfile] at hsome
    cases hsome

/-! ## The list -/

theorem mem_descendants_of_mem_ways (h : names ∈ ways fs top) : names ∈ fs.descendants top :=
  (List.mem_filter.mp h).1

theorem not_isOutOfReach_of_locate
    (h : fs.locate .follow vault.root = .ok ⟨top, some .directory⟩) :
    vault.isOutOfReach fs = false := by
  rw [isOutOfReach, isOverlong, stat, h, Bool.and_false]

/-- The list when there is a directory at the root. -/
theorem notes_of_locate (h : fs.locate .follow vault.root = .ok ⟨top, some .directory⟩) :
    vault.notes fs
      = if nestsTooDeep fs top then .error .tooDeep
        else if vault.anyOverlong fs top then .error (.file .nameTooLong)
        else .ok (vault.refsOf fs (ways fs top)) := by
  rw [notes, not_isOutOfReach_of_locate h, h]
  rfl

/-- There is a list when every folder can be looked into, and every path followed. -/
theorem notes_eq_ok_iff (h : fs.locate .follow vault.root = .ok ⟨top, some .directory⟩) :
    vault.notes fs = .ok refs
      ↔ nestsTooDeep fs top = false ∧ vault.anyOverlong fs top = false
        ∧ refs = vault.refsOf fs (ways fs top) := by
  rw [notes_of_locate h]
  cases nestsTooDeep fs top with
  | true => simp
  | false =>
      cases vault.anyOverlong fs top with
      | true => simp
      | false => simp [eq_comm]

/-- A list that comes in order is not changed by sorting. -/
theorem notes_of_ascending (hfound : fs.locate .follow vault.root = .ok ⟨top, some .directory⟩)
    (hroom : nestsTooDeep fs top = false ∧ vault.anyOverlong fs top = false)
    (hrefs : (ways fs top).filterMap (vault.refOf? fs) = refs)
    (hasc : Text.Ascending NoteRef.path refs) : vault.notes fs = .ok refs := by
  refine (notes_eq_ok_iff hfound).mpr ⟨hroom.1, hroom.2, ?_⟩
  rw [refsOf_eq, hrefs]
  exact (List.mergeSort_of_pairwise hasc).symm

theorem rooted_of_locate (h : fs.locate .follow vault.root = .ok ⟨top, some .directory⟩) :
    vault.Rooted fs top := by
  obtain ⟨n, hn, hleads, hentry⟩ := isGoal_of_locate h
  exact ⟨⟨n, hn, hleads⟩, hasDirectory_iff.mpr hentry.symm⟩

/-- The list when there is no directory at the root. -/
theorem notes_of_no_directory
    (h : ∀ top, fs.locate .follow vault.root ≠ .ok ⟨top, some .directory⟩) :
    vault.notes fs
      = if vault.isOutOfReach fs then .error (.file .nameTooLong) else .ok [] := by
  rw [notes]
  rcases hfound : fs.locate .follow vault.root with fault | ⟨top, _ | _ | _ | _⟩
  · split <;> rfl
  · split <;> rfl
  · split <;> rfl
  · exact absurd hfound (h top)
  · split <;> rfl

/-- The notes of a vault cannot be listed. -/
def Unlisted (vault : Vault) (fs : Files) : Prop :=
  ∃ fault, vault.notes fs = .error fault

theorem not_unlisted_iff : ¬ vault.Unlisted fs ↔ ∃ refs, vault.notes fs = .ok refs := by
  rw [Unlisted]
  cases vault.notes fs <;> simp

/-- Listing fails, finds no directory, or goes through the ways down from the root. -/
theorem notes_cases (vault : Vault) (fs : Files) :
    vault.Unlisted fs ∨ vault.notes fs = .ok []
      ∨ ∃ top, fs.locate .follow vault.root = .ok ⟨top, some .directory⟩
          ∧ vault.notes fs = .ok (vault.refsOf fs (ways fs top)) := by
  by_cases hroot : ∃ top, fs.locate .follow vault.root = .ok ⟨top, some .directory⟩
  · obtain ⟨top, hfound⟩ := hroot
    have hlisted := notes_of_locate hfound
    split at hlisted
    · exact .inl ⟨_, hlisted⟩
    · split at hlisted
      · exact .inl ⟨_, hlisted⟩
      · exact .inr (.inr ⟨top, hfound, hlisted⟩)
  · have hnone := notes_of_no_directory (not_exists.mp hroot)
    split at hnone
    · exact .inl ⟨_, hnone⟩
    · exact .inr (.inl hnone)

/-- With a directory at the root, listing fails exactly if folders below it stand too deep in one
    another, or the path of a folder or of what has the name of a note is too long. -/
theorem unlisted_iff_of_locate (h : fs.locate .follow vault.root = .ok ⟨top, some .directory⟩) :
    vault.Unlisted fs ↔ nestsTooDeep fs top = true ∨ vault.anyOverlong fs top = true := by
  rw [← not_iff_not, not_unlisted_iff]
  simp only [notes_eq_ok_iff h]
  simp

/-- **LISTING FAILS** exactly if the root is too far for the system to look, or there is a
    directory, and what is below it prevents that. -/
theorem unlisted_iff :
    vault.Unlisted fs
      ↔ vault.isOutOfReach fs = true
        ∨ ∃ top, fs.locate .follow vault.root = .ok ⟨top, some .directory⟩
          ∧ (nestsTooDeep fs top = true ∨ vault.anyOverlong fs top = true) := by
  by_cases hroot : ∃ top, fs.locate .follow vault.root = .ok ⟨top, some .directory⟩
  · obtain ⟨top, hfound⟩ := hroot
    rw [unlisted_iff_of_locate hfound, not_isOutOfReach_of_locate hfound, hfound]
    simp
  · rw [Unlisted, notes_of_no_directory (not_exists.mp hroot)]
    cases vault.isOutOfReach fs with
    | true => simp
    | false => simpa using fun top hfound => absurd ⟨top, hfound⟩ hroot

theorem notes_error {fault : Fault} (h : vault.notes fs = .error fault) :
    fault = .tooDeep ∨ fault = .file .nameTooLong := by
  by_cases hroot : ∃ top, fs.locate .follow vault.root = .ok ⟨top, some .directory⟩
  · obtain ⟨top, hfound⟩ := hroot
    rw [notes_of_locate hfound] at h
    split at h
    · exact .inl (Except.error.inj h).symm
    · split at h
      · exact .inr (Except.error.inj h).symm
      · cases h
  · rw [notes_of_no_directory (not_exists.mp hroot)] at h
    split at h
    · exact .inr (Except.error.inj h).symm
    · cases h

/-- What is listed stands below a directory at the root. -/
theorem listed_of_mem_notes (h : vault.notes fs = .ok refs) (href : ref ∈ refs) :
    ∃ top, fs.locate .follow vault.root = .ok ⟨top, some .directory⟩
      ∧ refs = vault.refsOf fs (ways fs top) := by
  rcases notes_cases vault fs with ⟨fault, hfault⟩ | hnone | ⟨top, hfound, hlisted⟩
  · cases h.symm.trans hfault
  · rw [Except.ok.inj (h.symm.trans hnone)] at href
    cases href
  · exact ⟨top, hfound, Except.ok.inj (h.symm.trans hlisted)⟩

/-- **WHAT IS LISTED IS THERE**: the path of each listed note leads to its file. -/
theorem holds_of_mem_notes (hfs : fs.WellFormed) (h : vault.notes fs = .ok refs)
    (href : ref ∈ refs) : ∃ place, vault.Holds fs ref place := by
  obtain ⟨top, hfound, rfl⟩ := listed_of_mem_notes h href
  obtain ⟨place, -, -, hholds⟩ := (rooted_of_locate hfound).mem_refsOf hfs
    (fun _ => mem_descendants_of_mem_ways) href
  exact ⟨place, hholds⟩

end NoteDigest.Vault
