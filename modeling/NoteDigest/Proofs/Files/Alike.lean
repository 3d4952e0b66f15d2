import Mathlib.Data.List.Perm.Basic
import NoteDigest.Proofs.Distinct
import NoteDigest.Proofs.Files.Erasing

/-! # Alike trees — files with other contents

    No way leads through a file, and what it holds does not show in the tree.  So trees
    that have the same directories and links, and files at the same places, have the same
    walks (`Alike.leads_iff`), the system finds the same places in them
    (`Alike.place_locate`), and the ways down are the same, though maybe in another order
    (`Alike.perm_descendants`). -/

namespace NoteDigest.Files

open NoteDigest.Path

variable {fs fs' : Files} {place goal : Place} {names : List Name} {n : Nat} {path : Path}

/-- A file stands at a place. -/
def HasFile (fs : Files) (place : Place) : Prop :=
  ∃ bytes stamp, fs.get? place = some (.file bytes stamp)

/-- Paths start from the same place in both trees, there is the same room for work on both,
    and at every place both have the same entry, or files. -/
structure Alike (fs fs' : Files) : Prop where
  here : fs'.here = fs.here
  limits : fs'.limits = fs.limits
  entries : ∀ place, fs'.get? place = fs.get? place ∨ (fs.HasFile place ∧ fs'.HasFile place)

namespace Alike

theorem symm (h : fs.Alike fs') : fs'.Alike fs where
  here := h.here.symm
  limits := h.limits.symm
  entries := fun place => (h.entries place).imp Eq.symm And.symm

/-! ## Walks -/

theorem hasDirectory_eq (h : fs.Alike fs') (place : Place) :
    fs'.hasDirectory place = fs.hasDirectory place := by
  rcases h.entries place with hsame | ⟨⟨_, _, hfile⟩, ⟨_, _, hfile'⟩⟩
  · rw [hasDirectory, hasDirectory, hsame]
  · rw [hasDirectory_of_file hfile, hasDirectory_of_file hfile']

theorem linkAt?_eq (h : fs.Alike fs') (place : Place) (name : Name) :
    fs'.linkAt? place name = fs.linkAt? place name := by
  rw [linkAt?, linkAt?, h.hasDirectory_eq]
  rcases h.entries (place ++ [name]) with hsame | ⟨⟨_, _, hfile⟩, ⟨_, _, hfile'⟩⟩
  · rw [hsame]
  · rw [hfile, hfile']

theorem isSome_eq (h : fs.Alike fs') (place : Place) :
    (fs'.get? place).isSome = (fs.get? place).isSome := by
  rcases h.entries place with hsame | ⟨⟨_, _, hfile⟩, ⟨_, _, hfile'⟩⟩
  · rw [hsame]
  · rw [hfile, hfile']
    rfl

theorem startOf_eq (h : fs.Alike fs') (path : Path) : fs'.startOf path = fs.startOf path := by
  rw [startOf, startOf, h.here]

theorem leads_iff (h : fs.Alike fs') :
    fs'.Leads place names n goal ↔ fs.Leads place names n goal := by
  constructor
  · exact Leads.transfer h.symm.hasDirectory_eq h.symm.linkAt?_eq
  · exact Leads.transfer h.hasDirectory_eq h.linkAt?_eq

theorem plain_iff (h : fs.Alike fs') : fs'.Plain place ↔ fs.Plain place := by
  simp only [Plain, h.hasDirectory_eq, h.linkAt?_eq]

/-! ## What the system finds -/

/-- **ONE NAME FURTHER**: names lead the system to the same place, if what is behind their
    links does. -/
theorem place_followWithin (h : fs.Alike fs') {hops : Nat}
    (hlink : ∀ place names, (fs'.followWithin .follow hops place names).map Spot.place
      = (fs.followWithin .follow hops place names).map Spot.place) :
    ∀ names place, (fs'.locateWithin .follow hops place names).map Spot.place
      = (fs.locateWithin .follow hops place names).map Spot.place := by
  intro names
  induction names with
  | nil =>
      intro place
      rw [locateWithin_nil, locateWithin_nil]
      rfl
  | cons name rest ih =>
      intro place
      have hdir' := h.hasDirectory_eq place
      by_cases hdir : fs.hasDirectory place = true
      · rw [hdir] at hdir'
        rcases name_cases name with hidle | rfl | hstep
        · rw [locateWithin_idle hdir hidle, locateWithin_idle hdir' hidle]
          exact ih place
        · rw [locateWithin_up hdir, locateWithin_up hdir']
          exact ih place.dropLast
        · rw [locateWithin_step hdir hstep, locateWithin_step hdir' hstep]
          by_cases hlong : isLongName name = true
          · rw [if_pos hlong, if_pos hlong]
          · rw [if_neg hlong, if_neg hlong]
            rcases h.entries (place ++ [name]) with hsame | ⟨⟨_, _, hfile⟩, ⟨_, _, hfile'⟩⟩
            · rw [hsame]
              cases fs.get? (place ++ [name]) with
              | none => rfl
              | some entry =>
                  cases entry with
                  | link target => exact hlink _ _
                  | file _ _ => exact ih _
                  | directory => exact ih _
            · -- a file is passed by for its kind, not for what it holds
              rw [hfile, hfile']
              exact ih _
      · rw [locateWithin_outside hdir, locateWithin_outside (by rw [hdir']; exact hdir)]

theorem place_locateWithin (h : fs.Alike fs') :
    ∀ hops names place, (fs'.locateWithin .follow hops place names).map Spot.place
      = (fs.locateWithin .follow hops place names).map Spot.place := by
  intro hops
  induction hops with
  | zero => exact h.place_followWithin fun place names => rfl
  | succ hops ih => exact h.place_followWithin fun place names => ih names place

/-- **THE SYSTEM FINDS** the same place, or fails for the same reason. -/
theorem place_locate (h : fs.Alike fs') (path : Path) :
    (fs'.locate .follow path).map Spot.place = (fs.locate .follow path).map Spot.place := by
  rw [locate, locate]
  split
  · rfl
  · split
    · rfl
    · rw [h.startOf_eq]
      exact h.place_locateWithin _ _ _

theorem locate_of_ok (h : fs.Alike fs') {entry : Option Entry}
    (hfound : fs.locate .follow path = .ok ⟨place, entry⟩) :
    fs'.locate .follow path = .ok ⟨place, fs'.get? place⟩ := by
  have hplace := h.place_locate path
  rw [hfound] at hplace
  cases hfound' : fs'.locate .follow path with
  | error fault => rw [hfound'] at hplace; cases hplace
  | ok spot =>
      rw [hfound'] at hplace
      obtain ⟨n, -, -, hentry⟩ := isGoal_of_locate hfound'
      obtain ⟨place', entry'⟩ := spot
      obtain rfl : place' = place := Except.ok.inj hplace
      rw [show entry' = fs'.get? place' from hentry]

theorem locate_of_error (h : fs.Alike fs') {fault : FileFault}
    (hfound : fs.locate .follow path = .error fault) :
    fs'.locate .follow path = .error fault := by
  have hplace := h.place_locate path
  rw [hfound] at hplace
  cases hfound' : fs'.locate .follow path with
  | error fault' => rw [hfound'] at hplace; exact congrArg Except.error (Except.error.inj hplace)
  | ok spot => rw [hfound'] at hplace; cases hplace

theorem isOverlong_eq (h : fs.Alike fs') (path : Path) :
    fs'.isOverlong path = fs.isOverlong path := by
  have himp : ∀ {fs fs' : Files}, fs.Alike fs' → fs.isOverlong path = true →
      fs'.isOverlong path = true := fun h hlong =>
    isOverlong_iff.mpr (h.locate_of_error (isOverlong_iff.mp hlong))
  rw [Bool.eq_iff_iff]
  exact ⟨himp h.symm, himp h⟩

/-- A path leads to a directory in both trees, to the same one. -/
theorem locate_directory (h : fs.Alike fs')
    (hfound : fs.locate .follow path = .ok ⟨place, some .directory⟩) :
    fs'.locate .follow path = .ok ⟨place, some .directory⟩ := by
  obtain ⟨n, -, -, hentry⟩ := isGoal_of_locate hfound
  rw [h.locate_of_ok hfound,
    hasDirectory_iff.mp ((h.hasDirectory_eq place).trans (hasDirectory_iff.mpr hentry.symm))]

/-- A path leads to a file in both trees, at the same place. -/
theorem locate_file (h : fs.Alike fs') {bytes : ByteArray} {stamp : Stamp}
    (hfound : fs.locate .follow path = .ok ⟨place, some (.file bytes stamp)⟩) :
    ∃ bytes' stamp', fs'.locate .follow path = .ok ⟨place, some (.file bytes' stamp')⟩ := by
  obtain ⟨n, -, -, hentry⟩ := isGoal_of_locate hfound
  have hfile : fs.get? place = some (.file bytes stamp) := hentry.symm
  rw [h.locate_of_ok hfound]
  rcases h.entries place with hsame | ⟨-, bytes', stamp', hfile'⟩
  · exact ⟨bytes, stamp, by rw [hsame, hfile]⟩
  · exact ⟨bytes', stamp', by rw [hfile']⟩

theorem isFile_eq (h : fs.Alike fs') (path : Path) : fs'.isFile path = fs.isFile path := by
  have himp : ∀ {fs fs' : Files}, fs.Alike fs' → fs.isFile path = true →
      fs'.isFile path = true := by
    intro fs fs' h hfile
    obtain ⟨place, bytes, stamp, hfound⟩ := isFile_iff.mp hfile
    obtain ⟨bytes', stamp', hfound'⟩ := h.locate_file hfound
    exact isFile_iff.mpr ⟨place, bytes', stamp', hfound'⟩
  rw [Bool.eq_iff_iff]
  exact ⟨himp h.symm, himp h⟩

/-- Where both trees have the same entry, at a plain place, the system tells the same. -/
theorem stat_plain_eq (h : fs.Alike fs') (hplain : fs.Plain place)
    (hsame : fs'.get? place = fs.get? place) :
    fs'.stat (toPlace place) = fs.stat (toPlace place) := by
  have hleads : fs.Leads (fs.startOf (toPlace place)) (toPlace place).names 0 place :=
    hplain.leads
  rw [stat, stat]
  rcases locate_of_leads (.inl rfl) hleads (Nat.zero_le _) with hfound | hlong
  · rw [h.locate_of_ok hfound, hfound, hsame]
  · rw [h.locate_of_error hlong, hlong]

/-! ## Places that paths stand for -/

theorem resolveNames_eq (h : fs.Alike fs') (enter : Place → List Name → Trail → Resolution) :
    ∀ names place trail,
      fs'.resolveNames enter place names trail = fs.resolveNames enter place names trail := by
  intro names
  induction names with
  | nil =>
      intro place trail
      rfl
  | cons name rest ih =>
      intro place trail
      rw [resolveNames, resolveNames, h.linkAt?_eq]
      simp only [ih]

theorem resolveWithin_eq (h : fs.Alike fs') (depth : Nat) :
    fs'.resolveWithin depth = fs.resolveWithin depth := by
  induction depth with
  | zero =>
      funext place names trail
      exact h.resolveNames_eq _ names place trail
  | succ depth ih =>
      funext place names trail
      rw [resolveWithin, resolveWithin, ih]
      exact h.resolveNames_eq _ names place trail

theorem stat_linkLoop (h : fs.Alike fs') (hloop : fs.stat path = .error .linkLoop) :
    fs'.stat path = .error .linkLoop := by
  rw [stat] at hloop
  split at hloop
  · cases hloop
  · cases hloop
  · rename_i fault hfound
    rw [stat, h.locate_of_error hfound]
    exact hloop

/-- **A PATH STANDS FOR** the same place, where the trees have as many entries: that is how
    deep links are looked into. -/
theorem placeOf_eq (h : fs.Alike fs') (hcount : fs'.entries.length = fs.entries.length)
    (path : Path) : fs'.placeOf path = fs.placeOf path := by
  have hresolution : ∀ path, fs'.resolution path = fs.resolution path := fun path => by
    rw [resolution, resolution, hcount, h.startOf_eq, h.resolveWithin_eq]
  have hdeep : ∀ path, fs'.nestsTooDeep path = fs.nestsTooDeep path := fun path => by
    rw [nestsTooDeep, nestsTooDeep, h.limits, hresolution]
  have hresolve : ∀ path, fs'.resolve path = fs.resolve path := by
    intro path
    rw [resolve, resolve, hdeep, hresolution]
    generalize (fs.resolution path).place = goal
    by_cases hloop : fs.stat (toPlace goal) = .error .linkLoop
    · simp only [hloop, h.stat_linkLoop hloop]
    · have hloop' : fs'.stat (toPlace goal) ≠ .error .linkLoop :=
        fun hfound => hloop (h.symm.stat_linkLoop hfound)
      simp only
  rw [placeOf, placeOf, noticesNul, noticesNul, hdeep, hresolve, hresolution, hresolution]

/-! ## The ways down -/

theorem reaches_eq (h : fs.Alike fs') :
    ∀ names place, fs'.reaches place names = fs.reaches place names := by
  intro names
  induction names with
  | nil => intro place; rfl
  | cons name rest ih =>
      intro place
      cases rest with
      | nil => rw [reaches, reaches, h.hasDirectory_eq, h.isSome_eq]
      | cons next rest =>
          show (fs'.hasDirectory place && fs'.reaches (place ++ [name]) (next :: rest))
            = (fs.hasDirectory place && fs.reaches (place ++ [name]) (next :: rest))
          rw [ih, h.hasDirectory_eq]

end Alike

/-- What is reached is there. -/
theorem isSome_of_reaches : ∀ {names : List Name} {place : Place},
    fs.reaches place names = true → names ≠ [] ∧ (fs.get? (place ++ names)).isSome = true := by
  intro names
  induction names with
  | nil => intro place h; cases h
  | cons name rest ih =>
      intro place h
      refine ⟨List.cons_ne_nil name rest, ?_⟩
      cases rest with
      | nil => exact (Bool.and_eq_true_iff.mp h).2
      | cons next rest =>
          have hrest := (ih (Bool.and_eq_true_iff.mp h).2).2
          rwa [List.append_assoc] at hrest

/-- **THE WAYS DOWN** are those that reach something. -/
theorem mem_descendants_iff {top : Place} :
    names ∈ fs.descendants top ↔ fs.reaches top names = true := by
  rw [descendants_eq, List.mem_eraseDups, List.mem_filter]
  constructor
  · exact And.right
  · intro h
    obtain ⟨hne, hsome⟩ := isSome_of_reaches h
    obtain ⟨entry, hentry⟩ := Option.isSome_iff_exists.mp hsome
    refine ⟨List.mem_filterMap.mpr ⟨(top ++ names, entry), ?_, below?_eq_some_iff.mpr rfl⟩, h⟩
    exact mem_entries_of_get? (by simp [hne]) hentry

theorem Alike.perm_descendants (h : fs.Alike fs') (top : Place) :
    (fs'.descendants top).Perm (fs.descendants top) := by
  refine (List.perm_ext_iff_of_nodup ?_ ?_).mpr fun names => ?_
  · exact nodup_eraseDups _
  · exact nodup_eraseDups _
  · rw [mem_descendants_iff, mem_descendants_iff, h.reaches_eq]

end NoteDigest.Files
