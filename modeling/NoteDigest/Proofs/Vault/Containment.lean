import NoteDigest.Proofs.Vault.Memory

/-! # Containment — what is read stays below the root

    No path in a vault is resolved to a place outside the root (`prefix_of_resolve`).  That
    does not yet keep the system inside: it follows whatever links are left in the place.
    So a reference is *contained* if it is the reference to its own path, and reading it
    opens files below the root only (`Contained`).

    It is, as soon as its path is resolved to the place it was written from
    (`contained_of_straight`).  Listed notes are contained, and so is what a path stands for
    that no link turns in a circle on (`resolve_eq_of_clear`).  Behind a circle links are left
    in the place, and with a name that is missing in front of the circle the system does not
    notice: then a file outside the root is read (`circling_leaves_root`). -/

namespace NoteDigest.Vault

open NoteDigest.Path Files

variable {vault : Vault} {fs : Files} {top place : Place} {path : Text} {ref : NoteRef}
  {refs : List NoteRef} {bytes : ByteArray} {text : Text}

/-- The root of the vault was given as text. -/
def IsWritten (vault : Vault) : Prop :=
  ∃ text, vault.root = parse text

/-- No link turns in a circle on the way to what a path in the vault stands for. -/
def IsClear (vault : Vault) (fs : Files) (path : Text) : Prop :=
  ∀ top, vault.rootPlace fs = .ok top → fs.IsClear ((toPlace top).join (parse path))

/-- The system opens the file with these bytes at a place, when it is asked for the text of a
    note: it follows what links are left in the place that the path of the note stands for. -/
def Opens (vault : Vault) (fs : Files) (ref : NoteRef) (place : Place) (bytes : ByteArray) :
    Prop :=
  ∃ written stamp, vault.resolve fs ref.path = .ok written
    ∧ fs.locate .follow (toPlace written) = .ok ⟨place, some (.file bytes stamp)⟩

/-- **CONTAINED**: a reference is the one to its own path, and only files below the root are
    opened for it. -/
structure Contained (vault : Vault) (fs : Files) (ref : NoteRef) : Prop where
  canonical : vault.refFor fs ref.path = .ok ref
  opens : ∀ place bytes, vault.Opens fs ref place bytes →
    ∃ top, vault.rootPlace fs = .ok top ∧ top <+: place

/-! ## Places below the root -/

/-- **NO PATH** is resolved to a place outside the root. -/
theorem prefix_of_resolve (h : vault.resolve fs path = .ok place) :
    ∃ top, vault.rootPlace fs = .ok top ∧ top <+: place := by
  obtain ⟨top, hroot, -⟩ := exists_of_bind_ok h
  exact ⟨top, hroot, (placeOf_of_resolve hroot h).2⟩

/-- A reference is written from the place that its path stands for. -/
theorem refFor_eq_ok (h : vault.refFor fs path = .ok ref) :
    ∃ top names, vault.rootPlace fs = .ok top
      ∧ vault.resolve fs path = .ok (top ++ names) ∧ ref = refAt top (top ++ names) := by
  obtain ⟨place, hplace, h⟩ := exists_of_bind_ok h
  obtain ⟨top, hroot, names, rfl⟩ := prefix_of_resolve hplace
  obtain ⟨found, hfound, h⟩ := exists_of_bind_ok h
  obtain rfl : top = found := Except.ok.inj (hroot.symm.trans hfound)
  exact ⟨top, names, hroot, hplace, (Except.ok.inj h).symm⟩

theorem refFor_of_resolve (hroot : vault.rootPlace fs = .ok top)
    (h : vault.resolve fs path = .ok place) : vault.refFor fs path = .ok (refAt top place) := by
  rw [refFor, h]
  show (do return refAt (← vault.rootPlace fs) place) = _
  rw [hroot]
  rfl

/-- The reference to a file that is there is a reference, and its file is there. -/
theorem noteRef_eq_ok (h : vault.noteRef fs path = .ok ref) :
    vault.refFor fs path = .ok ref
      ∧ ∃ place, vault.resolve fs ref.path = .ok place ∧ fs.isFile (toPlace place) = true := by
  obtain ⟨found, href, h⟩ := exists_of_bind_ok h
  obtain ⟨place, hplace, h⟩ := exists_of_bind_ok h
  obtain ⟨-, -, h⟩ := exists_of_bind_ok h
  split at h
  · rename_i hfile
    obtain rfl : found = ref := Except.ok.inj h
    exact ⟨href, place, hplace, hfile⟩
  · cases h

/-! ## Names -/

/-- The place of a root that was given as text can be written as text again. -/
theorem IsWritten.isName_rootPlace (hwritten : vault.IsWritten) (hfs : fs.WellFormed)
    (hroot : vault.rootPlace fs = .ok top) : ∀ name ∈ top, IsName name := by
  obtain ⟨text, htext⟩ := hwritten
  refine isName_of_placeOf hfs ?_ hroot
  intro name hname
  rw [htext] at hname
  exact Text.notMem_of_mem_splitWhere (List.mem_filter.mp hname).1

/-- So can the place that a path stands for. -/
theorem IsWritten.isName_resolve (hwritten : vault.IsWritten) (hfs : fs.WellFormed)
    (h : vault.resolve fs path = .ok place) : ∀ name ∈ place, IsName name := by
  obtain ⟨top, hroot, -⟩ := prefix_of_resolve h
  have hplace := (placeOf_of_resolve hroot h).1
  obtain ⟨names, hjoined, hslashless⟩ :=
    exists_toPlace_join (hwritten.isName_rootPlace hfs hroot) path
  rw [hjoined] at hplace
  exact isName_of_placeOf hfs hslashless hplace

/-! ## Straight references -/

/-- **WHAT IS OPENED** for a straight path is the file at the place it stands for: no link is
    left there. -/
theorem Straight.resolve_of_opens (hfs : fs.WellFormed) (hroot : vault.rootPlace fs = .ok top)
    (hstraight : vault.Straight fs top ref.path) (h : vault.Opens fs ref place bytes) :
    vault.resolve fs ref.path = .ok place := by
  obtain ⟨names, hparse, hresolved⟩ := hstraight
  obtain ⟨written, stamp, hwritten, hfound⟩ := h
  obtain rfl : top ++ names = written := Except.ok.inj (hresolved.symm.trans hwritten)
  obtain ⟨n, hn, hleads, hentry⟩ := isGoal_of_locate hfound
  -- the way to the file starts at the top and bears the names of the place itself
  have hgoal : fs.placeOf (toPlace (top ++ names)) = .ok place :=
    placeOf_of_leads hfs hleads hn (Option.isSome_of_eq_some hentry.symm)
  have hself := (placeOf_of_resolve hroot hresolved).1
  rw [hparse] at hself
  rw [hresolved]
  exact hself.symm.trans hgoal

/-- **STRAIGHT REFERENCES ARE CONTAINED.** -/
theorem contained_of_straight (hfs : fs.WellFormed) (hroot : vault.rootPlace fs = .ok top)
    {names : List Name} (href : ref = refAt top (top ++ names))
    (hresolved : vault.resolve fs ref.path = .ok (top ++ names))
    (hstraight : vault.Straight fs top ref.path) : vault.Contained fs ref where
  canonical := by
    rw [refFor_of_resolve hroot hresolved, ← href]
  opens := fun place bytes hopens =>
    prefix_of_resolve (hstraight.resolve_of_opens hfs hroot hopens)

/-- A reference whose path is resolved to the place it was written from is contained. -/
theorem contained_of_resolve_eq (hfs : fs.WellFormed) (hwritten : vault.IsWritten)
    (href : vault.refFor fs path = .ok ref)
    (hsame : vault.resolve fs ref.path = vault.resolve fs path) : vault.Contained fs ref := by
  obtain ⟨top, names, hroot, hresolved, rfl⟩ := refFor_eq_ok href
  have hplace := hsame.trans hresolved
  have hnames : ∀ name ∈ names, IsName name := fun name hname =>
    hwritten.isName_resolve hfs hresolved name (List.mem_append_right top hname)
  refine contained_of_straight hfs hroot rfl hplace ⟨names, ?_, hplace⟩
  rw [refAt, List.drop_left, parse_namesText hnames]

/-- **CLEAR PATHS** give references whose paths are resolved to the same place. -/
theorem resolve_eq_of_clear (hfs : fs.WellFormed) (hwritten : vault.IsWritten)
    (hclear : vault.IsClear fs path) (href : vault.refFor fs path = .ok ref) :
    vault.resolve fs ref.path = vault.resolve fs path := by
  obtain ⟨top, names, hroot, hresolved, rfl⟩ := refFor_eq_ok href
  have hplace := (placeOf_of_resolve hroot hresolved).1
  have hclear := hclear top hroot
  obtain ⟨joined, hjoined, hslashless⟩ :=
    exists_toPlace_join (hwritten.isName_rootPlace hfs hroot) path
  rw [hjoined] at hplace hclear
  obtain ⟨hunlinked, hself⟩ := unlinked_of_placeOf hfs hslashless hclear hplace
  have hnames : ∀ name ∈ names, IsName name :=
    fun name hname => hunlinked.names name (List.mem_append_right top hname)
  obtain ⟨names', hparse, hstraight⟩ := straight_refAt hroot hnames hself
  have hparse' : parse (refAt top (top ++ names)).path = ⟨false, names⟩ := by
    rw [refAt, List.drop_left, parse_namesText hnames]
  obtain rfl : names' = names := congrArg Path.names (hparse.symm.trans hparse')
  rw [hstraight, hresolved]

/-- **LISTED NOTES** are contained. -/
theorem contained_of_mem_notes (hfs : fs.WellFormed) (h : vault.notes fs = .ok refs)
    (href : ref ∈ refs) : vault.Contained fs ref := by
  obtain ⟨top, hfound, hrefs⟩ := listed_of_mem_notes h href
  have hrooted := rooted_of_locate hfound
  have hroot := hrooted.rootPlace hfs
  have hstraight := straight_of_mem_notes hfs hroot h href
  subst hrefs
  obtain ⟨place, rfl, ⟨names, rfl⟩, hholds⟩ := hrooted.mem_refsOf hfs
    (fun _ => mem_descendants_of_mem_ways) href
  exact contained_of_straight hfs hroot rfl hholds.resolved hstraight

/-! ## Reading -/

/-- The bytes that are read are those of a file. -/
theorem locate_of_read {path : Path} (h : fs.read path = .ok bytes) :
    ∃ place stamp, fs.locate .follow path = .ok ⟨place, some (.file bytes stamp)⟩ := by
  rw [Files.read] at h
  split at h
  · rename_i found stamp hstat
    obtain rfl : found = bytes := Except.ok.inj h
    obtain ⟨place, hfound⟩ := locate_of_stat hstat
    exact ⟨place, stamp, hfound⟩
  · cases h
  · cases h
  · cases h

/-- **WHAT IS READ WAS OPENED**: the text of a note is that of the file opened for it. -/
theorem opens_of_readText (h : vault.readText fs ref = .ok text) :
    ∃ place bytes, vault.Opens fs ref place bytes
      ∧ (Text.ofUtf8? bytes).map Text.unixNewlines = some text := by
  obtain ⟨written, hplace, h⟩ := exists_of_bind_ok h
  obtain ⟨bytes, hbytes, h⟩ := exists_of_bind_ok h
  have hread : fs.read (toPlace written) = .ok bytes := by
    cases hread : fs.read (toPlace written) with
    | error fault => rw [hread] at hbytes; cases hbytes
    | ok found => rw [hread] at hbytes; exact congrArg Except.ok (Except.ok.inj hbytes)
  obtain ⟨place, stamp, hfound⟩ := locate_of_read hread
  refine ⟨place, bytes, ⟨written, stamp, hplace, hfound⟩, ?_⟩
  split at h
  · rename_i decoded hdecoded
    rw [hdecoded, ← Except.ok.inj h]
    rfl
  · cases h

/-- **CONTAINMENT**, for every vault and every path:

    * a path is resolved to the root or a place below it, name by name, if to any;
    * what is read was opened, so it is enough to know what is opened;
    * the reference that a path is taken for has a path that is resolved to the same place,
      unless a link turns in a circle; then it is contained;
    * the notes that are listed are contained. -/
theorem contained_unless_circling (hfs : fs.WellFormed) (hwritten : vault.IsWritten) :
    (∀ path place, vault.resolve fs path = .ok place →
        ∃ top, vault.rootPlace fs = .ok top ∧ top <+: place)
      ∧ (∀ ref text, vault.readText fs ref = .ok text →
          ∃ place bytes, vault.Opens fs ref place bytes
            ∧ (Text.ofUtf8? bytes).map Text.unixNewlines = some text)
      ∧ (∀ path ref, vault.refFor fs path = .ok ref ∨ vault.noteRef fs path = .ok ref →
          (vault.IsClear fs path → vault.resolve fs ref.path = vault.resolve fs path)
            ∧ (vault.resolve fs ref.path = vault.resolve fs path → vault.Contained fs ref))
      ∧ (∀ refs, vault.notes fs = .ok refs → ∀ ref ∈ refs, vault.Contained fs ref) := by
  refine ⟨fun path place => prefix_of_resolve, fun ref text => opens_of_readText, ?_, ?_⟩
  · intro path ref hgiven
    have href : vault.refFor fs path = .ok ref := by
      rcases hgiven with href | hnote
      · exact href
      · exact (noteRef_eq_ok hnote).1
    constructor
    · intro hclear
      exact resolve_eq_of_clear hfs hwritten hclear href
    · intro hsame
      exact contained_of_resolve_eq hfs hwritten href hsame
  · intro refs hnotes ref href
    exact contained_of_mem_notes hfs hnotes href

/-- A vault with a note, a link to it, and a folder beside the vault.  The links `a`, `b` and
    `d` lead round in a circle, there behind a name that is missing, and out of the vault. -/
def maze : Files :=
  ⟨[(["vault".toList], .directory),
    (["vault".toList, "own.md".toList], .file (Text.toUtf8 "own".toList) (.clock 1)),
    (["vault".toList, "to.md".toList], .link "./own.md".toList),
    (["vault".toList, "a".toList], .link "a".toList),
    (["vault".toList, "b".toList], .link "missing/../a/../d/secret.md".toList),
    (["vault".toList, "d".toList], .link "../outside".toList),
    (["outside".toList], .directory),
    (["outside".toList, "secret.md".toList], .file (Text.toUtf8 "secret".toList) (.clock 1))],
   []⟩

theorem wellFormed_maze : maze.WellFormed :=
  ⟨by decide, by decide, plain_nil _, rfl⟩

/-- A path through a missing folder and a link is taken for the note, which is contained. -/
theorem maze_contained :
    (ofText "vault".toList).noteRef maze "x/../to.md".toList
        = .ok ⟨"own.md".toList, "own".toList⟩
      ∧ (ofText "vault".toList).Contained maze ⟨"own.md".toList, "own".toList⟩ := by
  have hnote : (ofText "vault".toList).noteRef maze "x/../to.md".toList
      = .ok ⟨"own.md".toList, "own".toList⟩ := by decide +kernel
  have hclear : (ofText "vault".toList).IsClear maze "x/../to.md".toList := by
    intro top htop
    obtain rfl : ["vault".toList] = top := Except.ok.inj htop
    show (maze.resolution _).clear = true
    decide +kernel
  have hcontained := (contained_unless_circling wellFormed_maze ⟨_, rfl⟩).2.2.1 _ _ (.inr hnote)
  exact ⟨hnote, hcontained.2 (hcontained.1 hclear)⟩

/-- **BEHIND A CIRCLE** a path in the vault is taken for a note with another place, and the
    file that is opened for it stands outside the root. -/
theorem circling_leaves_root :
    maze.WellFormed ∧ (ofText "vault".toList).IsWritten
      ∧ (ofText "vault".toList).rootPlace maze = .ok ["vault".toList]
      ∧ (ofText "vault".toList).noteRef maze "a/../b".toList = .ok ⟨['b'], ['b']⟩
      ∧ (ofText "vault".toList).resolve maze "a/../b".toList = .ok ["vault".toList, ['b']]
      ∧ (ofText "vault".toList).resolve maze ['b']
        = .ok ["vault".toList, ['d'], "secret.md".toList]
      ∧ (ofText "vault".toList).Opens maze ⟨['b'], ['b']⟩ ["outside".toList, "secret.md".toList]
        (Text.toUtf8 "secret".toList)
      ∧ (ofText "vault".toList).readText maze ⟨['b'], ['b']⟩ = .ok "secret".toList := by
  refine ⟨wellFormed_maze, ⟨_, rfl⟩, rfl, ?_, ?_, ?_, ?_, ?_⟩
  · decide +kernel
  · decide +kernel
  · decide +kernel
  · exact ⟨["vault".toList, ['d'], "secret.md".toList], .clock 1, by decide +kernel, rfl⟩
  · decide +kernel

end NoteDigest.Vault
