import NoteDigest.Proofs.Files.WellFormed

/-! # Erasing — the tree without one file

    No way leads through a file, so a tree without one has the same directories, links and
    walks (`leads_erase_iff`).  The system finds what it found before, except for the file
    itself (`thins_locate`), and the ways down are the same except for the one to it
    (`descendants_erase`). -/

namespace NoteDigest.Files

open NoteDigest.Path

variable {fs : Files} {gone place goal : Place} {name : Name} {names : List Name} {n : Nat}
  {bytes : ByteArray} {stamp : Stamp}

/-! ## Entries -/

theorem hasDirectory_of_file (hfile : fs.get? gone = some (.file bytes stamp)) :
    fs.hasDirectory gone = false := by
  rw [hasDirectory, hfile]

theorem get?_erase_file (hfile : fs.get? gone = some (.file bytes stamp)) (place : Place) :
    (fs.erase gone).get? place = if place = gone then none else fs.get? place :=
  get?_erase (ne_nil_of_not_hasDirectory (hasDirectory_of_file hfile)) place

theorem get?_erase_of_ne (hfile : fs.get? gone = some (.file bytes stamp))
    (hne : place ≠ gone) : (fs.erase gone).get? place = fs.get? place := by
  rw [get?_erase_file hfile, if_neg hne]

/-- A file is no directory, so no directory goes. -/
theorem hasDirectory_erase (hfile : fs.get? gone = some (.file bytes stamp)) (place : Place) :
    (fs.erase gone).hasDirectory place = fs.hasDirectory place := by
  rw [hasDirectory, hasDirectory, get?_erase_file hfile]
  by_cases hplace : place = gone
  · rw [if_pos hplace, hplace, hfile]
  · rw [if_neg hplace]

theorem linkAt?_erase (hfile : fs.get? gone = some (.file bytes stamp)) (place : Place)
    (name : Name) : (fs.erase gone).linkAt? place name = fs.linkAt? place name := by
  rw [linkAt?, linkAt?, hasDirectory_erase hfile, get?_erase_file hfile]
  by_cases hplace : place ++ [name] = gone
  · rw [if_pos hplace, hplace, hfile]
  · rw [if_neg hplace]

/-! ## Walks -/

/-- Walks depend on directories and links only. -/
theorem Leads.transfer {fs' : Files}
    (hdir : ∀ place, fs'.hasDirectory place = fs.hasDirectory place)
    (hlink : ∀ place name, fs'.linkAt? place name = fs.linkAt? place name)
    (h : fs.Leads place names n goal) : fs'.Leads place names n goal := by
  induction h with
  | done place => exact .done place
  | idle hd hidle _ ih => exact .idle ((hdir _).trans hd) hidle ih
  | up hd _ ih => exact .up ((hdir _).trans hd) ih
  | down hd hstep hnone _ ih => exact .down ((hdir _).trans hd) hstep ((hlink _ _).trans hnone) ih
  | link hstep hsome _ ih => exact .link hstep ((hlink _ _).trans hsome) ih

theorem leads_erase_iff (hfile : fs.get? gone = some (.file bytes stamp)) :
    (fs.erase gone).Leads place names n goal ↔ fs.Leads place names n goal := by
  constructor
  · intro h
    exact h.transfer (fun p => (hasDirectory_erase hfile p).symm)
      fun p name => (linkAt?_erase hfile p name).symm
  · intro h
    exact h.transfer (hasDirectory_erase hfile) (linkAt?_erase hfile)

theorem plain_erase_iff (hfile : fs.get? gone = some (.file bytes stamp)) :
    (fs.erase gone).Plain place ↔ fs.Plain place := by
  simp only [Plain, hasDirectory_erase hfile, linkAt?_erase hfile]

/-! ## What the system finds -/

/-- How the system's answer changes when a place is emptied: what was there is missing, and
    so is whatever could not be behind it. -/
def Thins (gone : Place) : (found found' : Except FileFault Spot) → Prop
  | .ok spot, found' =>
      found' = .ok ⟨spot.place, if spot.place = gone then none else spot.entry⟩
  | .error .notDirectory, found' =>
      found' = .error .notDirectory ∨ found' = .error .missing
  | .error fault, found' => found' = .error fault

theorem thins_error (gone : Place) (fault : FileFault) :
    Thins gone (.error fault) (.error fault) := by
  cases fault with
  | notDirectory => exact .inl rfl
  | _ => rfl

/-- **ONE NAME FURTHER**: along names the answer changes as it does behind their links. -/
theorem thins_followWithin (hfile : fs.get? gone = some (.file bytes stamp)) {hops : Nat}
    (hlink : ∀ place names, Thins gone (fs.followWithin .follow hops place names)
      ((fs.erase gone).followWithin .follow hops place names)) :
    ∀ names place, Thins gone (fs.locateWithin .follow hops place names)
      ((fs.erase gone).locateWithin .follow hops place names) := by
  intro names
  induction names with
  | nil =>
      intro place
      rw [locateWithin_nil, locateWithin_nil, get?_erase_file hfile]
      rfl
  | cons name rest ih =>
      intro place
      have hdir' := hasDirectory_erase hfile place
      by_cases hdir : fs.hasDirectory place = true
      · rw [hdir] at hdir'
        rcases name_cases name with hidle | rfl | hstep
        · rw [locateWithin_idle hdir hidle, locateWithin_idle hdir' hidle]
          exact ih place
        · rw [locateWithin_up hdir, locateWithin_up hdir']
          exact ih place.dropLast
        · rw [locateWithin_step hdir hstep, locateWithin_step hdir' hstep]
          by_cases hlong : isLongName name = true
          · rw [if_pos hlong, if_pos hlong]
            exact thins_error gone _
          · rw [if_neg hlong, if_neg hlong]
            by_cases hgone : place ++ [name] = gone
            · -- the file itself: there was no way on behind it, and there is none now
              rw [get?_erase_file hfile, if_pos hgone, hgone, hfile]
              cases rest with
              | nil =>
                  show Thins gone (fs.locateWithin .follow hops gone []) _
                  rw [locateWithin_nil]
                  show _ = _
                  rw [if_pos rfl]
                  rfl
              | cons next rest =>
                  show Thins gone (fs.locateWithin .follow hops gone (next :: rest)) _
                  rw [locateWithin_outside (by rw [hasDirectory, hfile]; exact Bool.false_ne_true)]
                  exact .inr rfl
            · rw [get?_erase_of_ne hfile hgone]
              cases fs.get? (place ++ [name]) with
              | none =>
                  cases rest with
                  | nil => show _ = _; rw [if_neg hgone]; rfl
                  | cons next rest => rfl
              | some entry =>
                  cases entry with
                  | link target => exact hlink _ _
                  | file _ _ => exact ih _
                  | directory => exact ih _
      · rw [locateWithin_outside hdir, locateWithin_outside (by rw [hdir']; exact hdir)]
        exact .inl rfl

theorem thins_locateWithin (hfile : fs.get? gone = some (.file bytes stamp)) :
    ∀ hops names place, Thins gone (fs.locateWithin .follow hops place names)
      ((fs.erase gone).locateWithin .follow hops place names) := by
  intro hops
  induction hops with
  | zero => exact thins_followWithin hfile fun place names => thins_error gone .linkLoop
  | succ hops ih => exact thins_followWithin hfile fun place names => ih names place

/-- **THE SYSTEM FINDS** in the smaller tree what it found before, but for the file. -/
theorem thins_locate (hfile : fs.get? gone = some (.file bytes stamp)) (path : Path) :
    Thins gone (fs.locate .follow path) ((fs.erase gone).locate .follow path) := by
  rw [locate, locate]
  split
  · exact thins_error gone .missing
  · split
    · exact thins_error gone .nameTooLong
    · exact thins_locateWithin hfile _ _ _

theorem locate_erase_of_ok (hfile : fs.get? gone = some (.file bytes stamp)) {path : Path}
    {entry : Option Entry} (hfound : fs.locate .follow path = .ok ⟨place, entry⟩) :
    (fs.erase gone).locate .follow path
      = .ok ⟨place, if place = gone then none else entry⟩ := by
  have hthin := thins_locate hfile path
  rw [hfound] at hthin
  exact hthin

/-- What was not to be found is not, though where there was no way on there may now be
    nothing. -/
theorem locate_erase_of_error (hfile : fs.get? gone = some (.file bytes stamp)) {path : Path}
    {fault : FileFault} (hfound : fs.locate .follow path = .error fault) :
    ∃ fault', (fs.erase gone).locate .follow path = .error fault'
      ∧ (fault' = .nameTooLong ↔ fault = .nameTooLong) := by
  have hthin := thins_locate hfile path
  rw [hfound] at hthin
  cases fault with
  | notDirectory => rcases hthin with hthin | hthin <;> exact ⟨_, hthin, by decide⟩
  | _ => exact ⟨_, hthin, Iff.rfl⟩

/-- A path leads to a file of the smaller tree if it led to that file before. -/
theorem isFile_erase_iff (hfile : fs.get? gone = some (.file bytes stamp)) {path : Path} :
    (fs.erase gone).isFile path = true ↔ ∃ place bytes stamp,
      fs.locate .follow path = .ok ⟨place, some (.file bytes stamp)⟩ ∧ place ≠ gone := by
  rw [isFile_iff]
  cases hfound : fs.locate .follow path with
  | ok spot =>
      obtain ⟨place, entry⟩ := spot
      rw [locate_erase_of_ok hfile hfound]
      by_cases hgone : place = gone
      · simp [hgone]
      · simp [hgone]
  | error fault =>
      obtain ⟨fault', hfound', -⟩ := locate_erase_of_error hfile hfound
      rw [hfound']
      simp

theorem isOverlong_erase (hfile : fs.get? gone = some (.file bytes stamp)) (path : Path) :
    (fs.erase gone).isOverlong path = fs.isOverlong path := by
  rw [Bool.eq_iff_iff, isOverlong_iff, isOverlong_iff]
  cases hfound : fs.locate .follow path with
  | ok spot =>
      rw [locate_erase_of_ok hfile hfound]
      simp
  | error fault =>
      obtain ⟨fault', hfound', hlong⟩ := locate_erase_of_error hfile hfound
      rw [hfound', Except.error.injEq, Except.error.injEq]
      exact hlong

/-- The other plain places are as they were. -/
theorem stat_erase (hfile : fs.get? gone = some (.file bytes stamp)) (hplain : fs.Plain place)
    (hne : place ≠ gone) : (fs.erase gone).stat (toPlace place) = fs.stat (toPlace place) := by
  have hleads : fs.Leads (fs.startOf (toPlace place)) (toPlace place).names 0 place :=
    hplain.leads
  rw [stat, stat]
  rcases locate_of_leads (.inl rfl) hleads (Nat.zero_le _) with hfound | hfound
  · rw [hfound, locate_erase_of_ok hfile hfound, if_neg hne]
  · obtain ⟨fault', hfound', hlong⟩ := locate_erase_of_error hfile hfound
    rw [hfound, hfound', hlong.mpr rfl]

/-! ## The ways down -/

/-- Repetitions can be left out before or after a choice is made. -/
theorem eraseDups_filter {α : Type} [BEq α] [LawfulBEq α] (p : α → Bool) :
    ∀ items : List α, (items.filter p).eraseDups = items.eraseDups.filter p
  | [] => rfl
  | item :: rest => by
      have hless : (rest.filter fun other => !other == item).length < rest.length + 1 :=
        Nat.lt_succ_of_le (List.length_filter_le _ _)
      have ih := eraseDups_filter p (rest.filter fun other => !other == item)
      rw [List.eraseDups_cons]
      by_cases hitem : p item = true
      · rw [List.filter_cons_of_pos hitem, List.filter_cons_of_pos hitem, List.eraseDups_cons,
          ← ih, List.filter_filter, List.filter_filter]
        simp only [Bool.and_comm]
      · rw [List.filter_cons_of_neg hitem, List.filter_cons_of_neg hitem, ← ih,
          List.filter_filter]
        -- an item that is not chosen is not among those that are
        refine congrArg List.eraseDups (List.filter_congr fun other _ => ?_)
        by_cases hother : other = item
        · rw [hother]
          simp [hitem]
        · simp [hother]
termination_by items => items.length

theorem reaches_erase (hfile : fs.get? gone = some (.file bytes stamp)) :
    ∀ names place, place ++ names ≠ gone →
      (fs.erase gone).reaches place names = fs.reaches place names := by
  intro names
  induction names with
  | nil => intro place _; rfl
  | cons name rest ih =>
      intro place hne
      cases rest with
      | nil =>
          rw [reaches, reaches, hasDirectory_erase hfile, get?_erase_of_ne hfile hne]
      | cons next rest =>
          have hrest := ih (place ++ [name]) (by rw [List.append_assoc]; exact hne)
          show ((fs.erase gone).hasDirectory place
              && (fs.erase gone).reaches (place ++ [name]) (next :: rest))
            = (fs.hasDirectory place && fs.reaches (place ++ [name]) (next :: rest))
          rw [hrest, hasDirectory_erase hfile]

theorem below?_eq_some_iff {top : Place} :
    below? top place = some names ↔ place = top ++ names := by
  rw [below?]
  constructor
  · intro h
    split at h
    · rename_i hprefix
      obtain ⟨rest, rfl⟩ := List.isPrefixOf_iff_prefix.mp hprefix
      rw [List.drop_left] at h
      rw [Option.some.inj h]
    · cases h
  · rintro rfl
    rw [if_pos (by simp), List.drop_left]

/-- The entries below a place, by the ways down to them. -/
def below (fs : Files) (top : Place) : List (List Name) :=
  fs.entries.filterMap fun entry => below? top entry.1

theorem descendants_eq (fs : Files) (top : Place) :
    fs.descendants top = ((fs.below top).filter (fs.reaches top)).eraseDups := rfl

theorem below_erase (fs : Files) (gone top : Place) :
    (fs.erase gone).below top = (fs.below top).filter fun names => top ++ names != gone := by
  rw [below, below, erase, List.filterMap_filter, List.filter_filterMap]
  refine List.filterMap_congr fun entry _ => ?_
  cases hbelow : below? top entry.1 with
  | none => simp
  | some names =>
      rw [below?_eq_some_iff.mp hbelow]
      rfl

/-- **THE WAYS DOWN** are those from before, but for the one to the file. -/
theorem descendants_erase (hfile : fs.get? gone = some (.file bytes stamp)) (top : Place) :
    (fs.erase gone).descendants top
      = (fs.descendants top).filter fun names => top ++ names != gone := by
  rw [descendants_eq, descendants_eq, ← eraseDups_filter, List.filter_filter, below_erase,
    List.filter_filter]
  refine congrArg List.eraseDups (List.filter_congr fun names _ => ?_)
  by_cases hgone : top ++ names = gone
  · simp [hgone]
  · rw [reaches_erase hfile names top hgone, Bool.and_comm]

end NoteDigest.Files
