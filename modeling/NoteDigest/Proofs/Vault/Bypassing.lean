import NoteDigest.Proofs.Vault.Containment
import NoteDigest.Proofs.Vault.Privacy

/-! # Bypassing — files that no path in a vault leads to

    A vault may stand beside files that it never opens: no path in it is resolved to a place
    from which the system finds them (`Bypasses`).  What such a file holds makes no
    difference.  Every path is resolved to the same place, every note is opened with the same
    text (`Bypasses.openNote_eq`), and the vault provides the same to summaries
    (`Bypasses.provider_eq`).

    A vault bypasses every file outside of its root, as long as links turn in no circle
    (`bypasses_of_clear`). -/

namespace NoteDigest

open NoteDigest.Path Files

/-- Two trees are the same but for what the file at a place holds. -/
structure Files.Rewritten (fs fs' : Files) (place : Place) : Prop where
  same : fs.SameBut fs' place
  before : fs.HasFile place
  after : fs'.HasFile place
  count : fs'.entries.length = fs.entries.length

theorem Files.Rewritten.alike {fs fs' : Files} {place : Place} (h : fs.Rewritten fs' place) :
    fs.Alike fs' :=
  h.same.alike h.before h.after

/-- No links, no circle. -/
theorem Files.isClear_of_no_link {fs : Files} (h : ∀ place name, fs.linkAt? place name = none)
    (path : Path) : fs.IsClear path := by
  have hnames : ∀ enter names place trail,
      (fs.resolveNames enter place names trail).clear = true := by
    intro enter names
    induction names with
    | nil =>
        intro place trail
        rfl
    | cons name rest ih =>
        intro place trail
        rw [resolveNames, h]
        split
        · exact ih _ _
        · split <;> exact ih _ _
  rw [Files.IsClear, resolution]
  cases fs.entries.length <;> exact hnames _ _ _ _

namespace Vault

variable {vault : Vault} {fs fs' : Files} {top place goal : Place} {path : Text} {ref : NoteRef}

/-- No path in the vault leads the system to a file at a place. -/
def Bypasses (vault : Vault) (fs : Files) (place : Place) : Prop :=
  ∀ path goal bytes stamp, vault.resolve fs path = .ok goal →
    fs.locate .follow (toPlace goal) ≠ .ok ⟨place, some (.file bytes stamp)⟩

/-- **OUTSIDE OF THE ROOT** a file is bypassed, if every path in the vault is clear. -/
theorem bypasses_of_clear (hfs : fs.WellFormed) (hwritten : vault.IsWritten)
    (hroot : vault.rootPlace fs = .ok top) (hclear : ∀ path, vault.IsClear fs path)
    (hout : ¬ top <+: place) : vault.Bypasses fs place := by
  intro path goal bytes stamp hresolved hfound
  obtain ⟨hplace, hbelow⟩ := placeOf_of_resolve hroot hresolved
  have htop := hwritten.isName_rootPlace hfs hroot
  obtain ⟨names, hjoined, hslashless⟩ := exists_toPlace_join htop path
  rw [hjoined] at hplace
  have hself := (unlinked_of_placeOf hfs hslashless (hjoined ▸ hclear path top hroot) hplace).2
  -- the place stands for itself, so that is where the system is led
  obtain ⟨n, hn, hleads, hentry⟩ := isGoal_of_locate hfound
  have hgoal : fs.placeOf (toPlace goal) = .ok place :=
    placeOf_of_leads hfs hleads hn (Option.isSome_of_eq_some hentry.symm)
  obtain rfl : goal = place := Except.ok.inj (hself.symm.trans hgoal)
  exact hout hbelow

namespace Bypasses

variable (hrewritten : fs.Rewritten fs' place)

include hrewritten

theorem resolve_eq (vault : Vault) (path : Text) :
    vault.resolve fs' path = vault.resolve fs path := by
  simp only [resolve, rootPlace, hrewritten.alike.placeOf_eq hrewritten.count]

theorem noteRef_eq (vault : Vault) (path : Text) :
    vault.noteRef fs' path = vault.noteRef fs path := by
  have halike := hrewritten.alike
  simp only [noteRef, refFor, resolve_eq hrewritten, rootPlace,
    halike.placeOf_eq hrewritten.count, refuseOverlong, halike.isOverlong_eq, halike.isFile_eq]

variable (h : vault.Bypasses fs place)

include h

/-- **WHERE A PATH IS RESOLVED TO** the system tells the same of both trees. -/
theorem stat_eq (hresolved : vault.resolve fs path = .ok goal) :
    fs'.stat (toPlace goal) = fs.stat (toPlace goal) := by
  have halike := hrewritten.alike
  cases hfound : fs.locate .follow (toPlace goal) with
  | error fault => rw [stat, stat, hfound, halike.locate_of_error hfound]
  | ok spot =>
      obtain ⟨other, entry⟩ := spot
      obtain ⟨n, -, -, hentry⟩ := isGoal_of_locate hfound
      obtain rfl : entry = fs.get? other := hentry
      have hother : other ≠ place := by
        rintro rfl
        obtain ⟨bytes, stamp, hbytes⟩ := hrewritten.before
        rw [hbytes] at hfound
        exact h path goal bytes stamp hresolved hfound
      rw [stat, stat, hfound, halike.locate_of_ok hfound, hrewritten.same.entries other hother]

theorem readText_eq (ref : NoteRef) : vault.readText fs' ref = vault.readText fs ref := by
  rw [readText, readText, resolve_eq hrewritten]
  cases hresolved : vault.resolve fs ref.path with
  | error fault => rfl
  | ok goal =>
      have hread : fs'.read (toPlace goal) = fs.read (toPlace goal) := by
        rw [Files.read, Files.read, stat_eq hrewritten h hresolved]
      simp only [bind, Except.bind, hread]

/-- **NOTES ARE OPENED** alike in both trees. -/
theorem openNote_eq (path : Text) : vault.openNote fs' path = vault.openNote fs path := by
  simp only [openNote, noteRef_eq hrewritten, readText_eq hrewritten h]

theorem metadata_eq (ref : NoteRef) : vault.metadata fs' ref = vault.metadata fs ref := by
  have hstamp : vault.stampOf fs' ref = vault.stampOf fs ref := by
    rw [stampOf, stampOf, resolve_eq hrewritten]
    cases hresolved : vault.resolve fs ref.path with
    | error fault => rfl
    | ok goal => simp only [bind, Except.bind, stat_eq hrewritten h hresolved]
  have hlines : vault.lines fs' ref = vault.lines fs ref := by
    rw [lines, lines, readText_eq hrewritten h]
  rw [metadata, metadata, hstamp, readMetadata, readMetadata, hlines]

/-- **SUMMARIES** are provided with the same in both trees. -/
theorem provider_eq (hfs : fs.WellFormed) (hfs' : fs'.WellFormed) :
    vault.provider fs' = vault.provider fs := by
  have hnotes := notes_alike hfs hfs' hrewritten.alike vault
  simp only [provider, hnotes, metadata_eq hrewritten h, lines, readText_eq hrewritten h]

end Bypasses
end Vault
end NoteDigest
