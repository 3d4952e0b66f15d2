import NoteDigest.Proofs.Vault.Containment
import NoteDigest.Proofs.Vault.Repetition

/-! # Lookup — which notes a path can be taken for

    Notes are found in two ways.  `Vault.notes` goes down from the root and takes what has
    the name of a note; `Vault.noteRef` asks what a path leads to and takes any file.  So a
    path may be taken for a file that is not listed: it is listed exactly when some way down
    reaches it (`mem_notes_iff_reaches`), that is, when its own name is that of a note or a
    link with such a name leads to it (`mem_notes_iff_named_or_linked`).

    The other way round nothing is missed: the path of a listed note is taken for that note,
    unless the path to it from the top is too long for the system (`noteRef_of_mem_notes`). -/

namespace NoteDigest

open NoteDigest.Path

namespace Files

variable {fs : Files} {names : List Name} {top : Place}

/-- What stands at a plain place is reached from every directory above it. -/
theorem reaches_of_plain (hplain : fs.Plain (top ++ names)) (hne : names ≠ [])
    (hsome : (fs.get? (top ++ names)).isSome = true) : fs.reaches top names = true := by
  induction names generalizing top with
  | nil => exact absurd rfl hne
  | cons name rest ih =>
      have hdir : fs.hasDirectory top = true := (hplain top name (by simp)).1
      cases rest with
      | nil => exact Bool.and_eq_true_iff.mpr ⟨hdir, hsome⟩
      | cons next rest =>
          rw [List.append_cons] at hplain hsome
          exact Bool.and_eq_true_iff.mpr ⟨hdir, ih hplain (List.cons_ne_nil next rest) hsome⟩

end Files

/-! ## Files that are looked up -/

namespace Vault

open Files

variable {vault : Vault} {fs : Files} {top place : Place} {names : List Name} {path : Text}
  {ref : NoteRef} {refs : List NoteRef} {bytes : ByteArray} {stamp : Stamp}

/-- **WHAT A CLEAR PATH IS TAKEN FOR** is a file at a plain place, the one the path stands
    for. -/
theorem holds_of_noteRef (hfs : fs.WellFormed) (hwritten : vault.IsWritten)
    (hclear : vault.IsClear fs path) (href : vault.noteRef fs path = .ok ref) :
    ∃ top names, vault.rootPlace fs = .ok top ∧ ref = refAt top (top ++ names)
      ∧ (∀ name ∈ names, IsName name) ∧ vault.Holds fs ref (top ++ names) := by
  obtain ⟨hwas, place, hplace, hfile⟩ := noteRef_eq_ok href
  have hsame := resolve_eq_of_clear hfs hwritten hclear hwas
  obtain ⟨top, names, hroot, hresolved, rfl⟩ := refFor_eq_ok hwas
  have hself := hsame.trans hresolved
  have hnames : ∀ name ∈ names, IsName name := fun name hname =>
    hwritten.isName_resolve hfs hresolved name (List.mem_append_right top hname)
  have hstraight : vault.Straight fs top (refAt top (top ++ names)).path := by
    refine ⟨names, ?_, hself⟩
    rw [refAt, List.drop_left, parse_namesText hnames]
  obtain ⟨goal, bytes, stamp, hfound⟩ := isFile_iff.mp hfile
  have hopens : vault.Opens fs (refAt top (top ++ names)) goal bytes :=
    ⟨place, stamp, hplace, hfound⟩
  obtain rfl : goal = top ++ names :=
    Except.ok.inj ((hstraight.resolve_of_opens hfs hroot hopens).symm.trans hself)
  obtain ⟨n, -, hleads, hentry⟩ := isGoal_of_locate hfound
  exact ⟨top, names, hroot, rfl, hnames, hself, hleads.plain (plain_nil fs), bytes, stamp,
    hentry.symm⟩

/-- A reference to a file is what its own path is taken for, unless the path to the file
    from the top is too long. -/
theorem noteRef_of_holds (hcanonical : vault.refFor fs ref.path = .ok ref)
    (h : vault.Holds fs ref place) :
    vault.noteRef fs ref.path
      = if fs.isOverlong (toPlace place) then .error (.file .nameTooLong) else .ok ref := by
  obtain ⟨bytes, stamp, hfile⟩ := h.file
  have hleads : fs.Leads (fs.startOf (toPlace place)) (toPlace place).names 0 place := h.plain.leads
  have hfound := locate_of_leads (.inl rfl) hleads (Nat.zero_le _)
  rw [noteRef, hcanonical]
  simp only [bind, Except.bind, h.resolved, refuseOverlong]
  rcases hfound with hfound | hlong
  · have hshort : fs.isOverlong (toPlace place) = false := by
      rw [isOverlong, stat, hfound, hfile]
    have hisFile : fs.isFile (toPlace place) = true :=
      isFile_iff.mpr ⟨place, bytes, stamp, by rw [hfound, hfile]⟩
    rw [hshort, hisFile]
    rfl
  · rw [isOverlong_iff.mpr hlong]
    rfl

/-- **NOTHING IS MISSED**: the path of a listed note is taken for that note. -/
theorem noteRef_of_mem_notes (hfs : fs.WellFormed) (h : vault.notes fs = .ok refs)
    (href : ref ∈ refs) :
    ∃ place, vault.Holds fs ref place ∧ vault.noteRef fs ref.path
      = if fs.isOverlong (toPlace place) then .error (.file .nameTooLong) else .ok ref := by
  obtain ⟨place, hholds⟩ := holds_of_mem_notes hfs h href
  exact ⟨place, hholds, noteRef_of_holds (contained_of_mem_notes hfs h href).canonical hholds⟩

/-- What is opened has been looked up and read. -/
theorem openNote_eq_ok {text : Text} (h : vault.openNote fs path = .ok (ref, text)) :
    vault.noteRef fs path = .ok ref ∧ vault.readText fs ref = .ok text := by
  obtain ⟨found, href, h⟩ := exists_of_bind_ok h
  obtain ⟨read, hread, h⟩ := exists_of_bind_ok h
  cases h
  exact ⟨href, hread⟩

/-! ## Files that are listed -/

/-- The file has the name of a note. -/
def IsNamed (ref : NoteRef) : Prop :=
  hasNoteName (parse ref.path).names = true

/-- A link below the root with the name of a note leads to the file. -/
def IsLinked (vault : Vault) (fs : Files) (ref : NoteRef) : Prop :=
  ∃ top names target place, vault.rootPlace fs = .ok top
    ∧ fs.get? (top ++ names) = some (.link target) ∧ vault.Reaches fs names place
    ∧ vault.resolve fs ref.path = .ok place

section Located

variable (hfs : fs.WellFormed) (hfound : fs.locate .follow vault.root = .ok ⟨top, some .directory⟩)

include hfs hfound

/-- **A FILE WITH THE NAME OF A NOTE** is reached on the way that its own names are, if no way
    down is too long. -/
theorem reaches_own (hshort : vault.anyOverlong fs top = false)
    (hplain : fs.Plain (top ++ names)) (hfile : fs.get? (top ++ names) = some (.file bytes stamp))
    (hname : hasNoteName names = true) : vault.Reaches fs names (top ++ names) := by
  have hrooted := rooted_of_locate hfound
  have hsome := Option.isSome_of_eq_some hfile
  have hne : names ≠ [] := by
    rintro rfl
    rw [List.append_nil] at hfile
    cases (hasDirectory_iff.mp hrooted.directory).symm.trans hfile
  have hway : names ∈ ways fs top := List.mem_filter.mpr
    ⟨mem_descendants_iff.mpr (reaches_of_plain hplain hne hsome), hname⟩
  have hwritten : (vault.pathBelow names).names ≠ [[]] := by
    intro hnothing
    obtain ⟨name, hmem⟩ := List.exists_mem_of_ne_nil names hne
    have hjoined : name ∈ (vault.pathBelow names).names := List.mem_append_right _ hmem
    rw [hnothing, List.mem_singleton] at hjoined
    exact (hfs.isName hsome name (List.mem_append_right top hmem)).ne_nil hjoined
  -- the way goes through the root, and through no link behind it
  obtain ⟨n, hn, hleads, -⟩ := isGoal_of_locate hfound
  have hbelow : fs.Leads (fs.startOf (vault.pathBelow names)) (vault.pathBelow names).names n
      (top ++ names) := hleads.append hplain.leads_below
  rcases locate_of_leads (.inr hwritten) hbelow hn with hplace | hlong
  · exact ⟨⟨top, hfound, hway, List.prefix_append top names⟩, bytes, stamp, by rw [hplace, hfile]⟩
  · have hany : vault.anyOverlong fs top = true := by
      refine List.any_eq_true.mpr ⟨names, mem_descendants_of_mem_ways hway, ?_⟩
      rw [hname, Bool.or_true, Bool.true_and]
      exact isOverlong_iff.mpr hlong
    rw [hshort] at hany
    cases hany

variable (hwritten : vault.IsWritten) (hnotes : vault.notes fs = .ok refs)
  (href : vault.noteRef fs path = .ok ref)

include hwritten hnotes href

/-- **WHAT A PATH IS TAKEN FOR IS LISTED** exactly when some way down reaches the place that
    the path stands for. -/
theorem mem_notes_iff_reaches :
    ref ∈ refs
      ↔ ∃ names place, vault.Reaches fs names place ∧ vault.resolve fs path = .ok place := by
  obtain ⟨top', own, hroot, hresolved, rfl⟩ := refFor_eq_ok (noteRef_eq_ok href).1
  have hrooted := rooted_of_locate hfound
  obtain rfl : top' = top := Except.ok.inj (hroot.symm.trans (hrooted.rootPlace hfs))
  rw [((notes_eq_ok_iff hfound).mp hnotes).2.2, mem_refsOf_iff hfound hfs]
  constructor
  · -- references with one path are to one place
    rintro ⟨names, place, hreaches, hsame⟩
    obtain ⟨others, rfl⟩ := (hreaches.below hfound).2
    have hown : ∀ name ∈ own, IsName name := fun name hname =>
      hwritten.isName_resolve hfs hresolved name (List.mem_append_right _ hname)
    have hothers : ∀ name ∈ others, IsName name := fun name hname =>
      hfs.isName hreaches.isSome name (List.mem_append_right _ hname)
    have hpath := congrArg (fun ref : NoteRef => (parse ref.path).names) hsame
    simp only [refAt, List.drop_left, parse_namesText hown, parse_namesText hothers] at hpath
    obtain rfl := hpath
    exact ⟨names, _, hreaches, hresolved⟩
  · rintro ⟨names, place, hreaches, hplace⟩
    obtain rfl : top' ++ own = place := Except.ok.inj (hresolved.symm.trans hplace)
    exact ⟨names, _, hreaches, rfl⟩

/-- **WHAT A CLEAR PATH IS TAKEN FOR IS LISTED** exactly when it has the name of a note, or a
    link with such a name leads to it. -/
theorem mem_notes_iff_named_or_linked (hclear : vault.IsClear fs path) :
    ref ∈ refs ↔ IsNamed ref ∨ vault.IsLinked fs ref := by
  have hsame := resolve_eq_of_clear hfs hwritten hclear (noteRef_eq_ok href).1
  obtain ⟨top', own, hroot, rfl, hown, hholds⟩ := holds_of_noteRef hfs hwritten hclear href
  have hrooted := rooted_of_locate hfound
  obtain rfl : top' = top := Except.ok.inj (hroot.symm.trans (hrooted.rootPlace hfs))
  have hparse : (parse (refAt top' (top' ++ own)).path).names = own := by
    rw [refAt, List.drop_left, parse_namesText hown]
  rw [mem_notes_iff_reaches hfs hfound hwritten hnotes href, ← hsame]
  constructor
  · rintro ⟨names, place, hreaches, hplace⟩
    rcases hreaches.own_or_link hfound hfs with rfl | ⟨target, hlink⟩
    · left
      obtain rfl : own = names :=
        List.append_cancel_left (Except.ok.inj (hholds.resolved.symm.trans hplace))
      rw [IsNamed, hparse]
      exact (List.mem_filter.mp (hreaches.below hfound).1).2
    · exact .inr ⟨top', names, target, place, hroot, hlink, hreaches, hplace⟩
  · rintro (hnamed | ⟨-, names, -, place, -, -, hreaches, hplace⟩)
    · rw [IsNamed, hparse] at hnamed
      have hshort := ((notes_eq_ok_iff hfound).mp hnotes).2.1
      obtain ⟨bytes, stamp, hfile⟩ := hholds.file
      exact ⟨own, _, reaches_own hfs hfound hshort hholds.plain hfile hnamed, hholds.resolved⟩
    · exact ⟨names, place, hreaches, hplace⟩

end Located

end Vault
end NoteDigest
