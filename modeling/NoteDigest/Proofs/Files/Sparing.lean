import Mathlib.Data.Set.Basic
import NoteDigest.Proofs.Files.Writing

/-! # Sparing — what a change leaves as it is

    A path denotes the place that a file is written to by it (`Denotes`).  A change spares a
    tree, but for some places, if elsewhere it does no more than make directories where
    nothing was, and if every path goes on denoting what it denoted (`Spares`).  So what is
    spared by one change after another is spared by all of them (`Spares.trans`), and the
    files there are what they were (`Spares.fileAt?_eq`).

    Making a way spares the whole tree (`spares_makeWay`), and writing a file spares it but for
    the place that the path denotes (`spares_write`). -/

namespace NoteDigest.Files

variable {fs fs' fs'' : Files} {path : Path} {place other : Place} {entry : Entry}
  {bytes : ByteArray} {stamp : Stamp} {written written' : Set Place}

/-! ## Files and places -/

/-- What the file at a place holds, and when it was written; none where no file is. -/
def fileAt? (fs : Files) (place : Place) : Option (ByteArray × Stamp) :=
  match fs.get? place with
  | some (.file bytes stamp) => some (bytes, stamp)
  | _ => none

/-- A path denotes a place: a file that is written by it goes there, if no directory is in the
    way. -/
def Denotes (fs : Files) (path : Path) (place : Place) : Prop :=
  ∃ entry, fs.locate .write path = .ok ⟨place, entry⟩

/-- **NO PATH DENOTES TWO PLACES.** -/
theorem Denotes.unique (h : fs.Denotes path place) (h' : fs.Denotes path other) :
    place = other := by
  obtain ⟨entry, hfound⟩ := h
  obtain ⟨entry', hfound'⟩ := h'
  cases hfound.symm.trans hfound'
  rfl

/-- What a path denotes stays, when an entry is put where there was nothing, or a file. -/
theorem Denotes.put (h : fs.Denotes path place) (hother : fs.IsVacant other)
    (hentry : ∀ target, entry ≠ .link target) : (fs.put other entry).Denotes path place := by
  obtain ⟨old, hfound⟩ := h
  exact ⟨_, locate_put hother entry hentry hfound⟩

/-! ## What is spared -/

/-- **A TREE IS SPARED** but for some places: elsewhere entries stay as they are, unless
    directories are made where nothing was; and paths go on denoting what they denoted. -/
structure Spares (fs fs' : Files) (written : Set Place) : Prop where
  entries : ∀ place, place ∉ written → fs'.get? place = fs.get? place
    ∨ (fs.get? place = none ∧ fs'.get? place = some .directory)
  denotes : ∀ {path place}, fs.Denotes path place → fs'.Denotes path place

namespace Spares

theorem refl (fs : Files) (written : Set Place) : fs.Spares fs written where
  entries := fun _ _ => .inl rfl
  denotes := id

theorem mono (h : fs.Spares fs' written) (hsubset : written ⊆ written') :
    fs.Spares fs' written' where
  entries := fun place hplace => h.entries place fun hmem => hplace (hsubset hmem)
  denotes := h.denotes

/-- **ONE CHANGE AFTER THE OTHER**: a directory that was made stays, and what is spared by both
    is spared. -/
theorem trans (h : fs.Spares fs' written) (h' : fs'.Spares fs'' written') :
    fs.Spares fs'' (written ∪ written') where
  entries := by
    intro place hplace
    obtain ⟨hfirst, hsecond⟩ := not_or.mp hplace
    rcases h.entries place hfirst with hsame | ⟨hnone, hmade⟩
    · rcases h'.entries place hsecond with hsame' | ⟨hnone', hmade'⟩
      · exact .inl (hsame'.trans hsame)
      · exact .inr ⟨hsame.symm.trans hnone', hmade'⟩
    · rcases h'.entries place hsecond with hsame' | ⟨hnone', -⟩
      · exact .inr ⟨hnone, hsame'.trans hmade⟩
      · cases hmade.symm.trans hnone'
  denotes := fun hpath => h'.denotes (h.denotes hpath)

/-- **FILES THAT ARE SPARED** are what they were: none is new, none is gone, and none holds
    anything else. -/
theorem fileAt?_eq (h : fs.Spares fs' written) (hplace : place ∉ written) :
    fs'.fileAt? place = fs.fileAt? place := by
  rw [fileAt?, fileAt?]
  rcases h.entries place hplace with hsame | ⟨hnone, hmade⟩
  · rw [hsame]
  · rw [hnone, hmade]

end Spares

/-! ## Changes that spare the tree -/

/-- A directory that is added goes where nothing was. -/
theorem spares_add (h : fs.add path .directory = .ok fs') : fs.Spares fs' ∅ := by
  obtain ⟨place, hkept, rfl⟩ := add_eq_ok h
  have hfound := locate_follow_of hkept fun _ target hsame => by cases hsame
  obtain ⟨n, -, -, hnone⟩ := isGoal_of_locate hfound
  have hvacant : fs.IsVacant place := .inl hnone.symm
  refine ⟨fun other _ => ?_, fun hpath => hpath.put hvacant fun _ => nofun⟩
  rw [hvacant.get?_put]
  split
  · rename_i hsame
    rw [hsame]
    exact .inr ⟨hnone.symm, rfl⟩
  · exact .inl rfl

/-- **WRITING** spares the tree but for the place that the path denotes. -/
theorem spares_write (hfs : fs.WellFormed) (h : fs.write path bytes stamp = .ok fs') :
    fs.Spares fs' {place | fs'.Denotes path place} := by
  obtain ⟨place, hvacant, rfl, hfound⟩ := locate_of_write hfs h
  refine ⟨fun other hother => ?_, fun hpath => hpath.put hvacant fun _ => nofun⟩
  have hne : other ≠ place := by
    rintro rfl
    exact hother ⟨_, hfound⟩
  rw [hvacant.get?_put, if_neg hne]
  exact .inl rfl

/-- **MAKING A WAY** spares the whole tree, also when it is broken off. -/
theorem spares_makeWay (upwards : List Name) (fs : Files) :
    fs.Spares (Change.makeWay upwards fs).2 ∅ := by
  have hkeeps : Change.Keeps (fun now => fs.Spares now ∅) (Change.makeWay upwards) := by
    refine Change.Keeps.makeWay upwards ?_
    intro path _ before after hbefore hadd
    have hboth := hbefore.trans (spares_add hadd)
    rwa [Set.union_empty] at hboth
  exact hkeeps fs (.refl fs ∅)

end NoteDigest.Files
