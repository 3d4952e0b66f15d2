import NoteDigest.Proofs.Files.Walk

/-! # Locating — the system's way to follow a path

    `Files.locate` goes along walks.  What it finds is the goal of one
    (`isGoal_of_locate`), and it finds the goal of every walk through few enough links,
    unless a name on the way is too long (`locateWithin_of_leads`).  A plain place is
    found, or too long to be found; there is no circle on the way to it
    (`stat_plain`). -/

namespace NoteDigest.Files

open NoteDigest.Path

variable {fs : Files} {place goal : Place} {name : Name} {names rest : List Name}
  {n hops : Nat} {path : Path} {ending : Ending}

/-- What is done with a link when no more than `hops` may be followed. -/
def followWithin (fs : Files) (ending : Ending) :
    (hops : Nat) → Place → List Name → Except FileFault Spot
  | 0 => fun _ _ => .error .linkLoop
  | hops + 1 => fs.locateWithin ending hops

theorem locateWithin_eq (fs : Files) (ending : Ending) (hops : Nat) :
    fs.locateWithin ending hops = fs.locateNames ending (fs.followWithin ending hops) := by
  cases hops <;> rfl

theorem locateWithin_nil :
    fs.locateWithin ending hops place [] = .ok ⟨place, fs.get? place⟩ := by
  rw [locateWithin_eq, locateNames]

/-- There is no way on from what is no directory. -/
theorem locateWithin_outside (hdir : ¬ fs.hasDirectory place = true) :
    fs.locateWithin ending hops place (name :: rest) = .error .notDirectory := by
  rw [locateWithin_eq, locateNames, if_pos (by simpa using hdir)]

theorem locateWithin_idle (hdir : fs.hasDirectory place = true) (hidle : isIdle name = true) :
    fs.locateWithin ending hops place (name :: rest)
      = fs.locateWithin ending hops place rest := by
  rw [locateWithin_eq, locateNames, hdir, hidle]
  rfl

theorem locateWithin_up (hdir : fs.hasDirectory place = true) :
    fs.locateWithin ending hops place (parentName :: rest)
      = fs.locateWithin ending hops place.dropLast rest := by
  rw [locateWithin_eq, locateNames, hdir]
  rfl

/-- A name that leads down, to what may be a link. -/
theorem locateWithin_down (hdir : fs.hasDirectory place = true) (hstep : isStep name = true) :
    fs.locateWithin ending hops place (name :: rest)
      = if ending == .write && isFinalSlash rest then .error .isDirectory
        else if isLongName name then .error .nameTooLong
        else
          match fs.get? (place ++ [name]) with
          | none => if rest.isEmpty then .ok ⟨place ++ [name], none⟩ else .error .missing
          | some (.link target) =>
              if rest.isEmpty && ending == .keep then .ok ⟨place ++ [name], some (.link target)⟩
              else
                fs.followWithin ending hops (linkStart place target)
                  ((ofText target).names ++ rest)
          | some _ => fs.locateWithin ending hops (place ++ [name]) rest := by
  rw [locateWithin_eq, locateNames, hdir, not_isIdle_of_isStep hstep,
    not_parentName_of_isStep hstep]
  rfl

/-- A link at the end of a path that is followed is no different from one before. -/
theorem locateWithin_step (hdir : fs.hasDirectory place = true) (hstep : isStep name = true) :
    fs.locateWithin .follow hops place (name :: rest)
      = if isLongName name then .error .nameTooLong
        else
          match fs.get? (place ++ [name]) with
          | none => if rest.isEmpty then .ok ⟨place ++ [name], none⟩ else .error .missing
          | some (.link target) =>
              fs.followWithin .follow hops (linkStart place target)
                ((ofText target).names ++ rest)
          | some _ => fs.locateWithin .follow hops (place ++ [name]) rest := by
  rw [locateWithin_down hdir hstep]
  cases rest <;> rfl

/-! ## From the system to walks -/

/-- A spot is the goal of a walk through at most `hops` links. -/
def IsGoal (fs : Files) (place : Place) (names : List Name) (hops : Nat) (spot : Spot) : Prop :=
  ∃ n ≤ hops, fs.Leads place names n spot.place ∧ spot.entry = fs.get? spot.place

/-- **ONE NAME FURTHER**: what is found along names is a goal, if what is found behind
    their links is. -/
theorem isGoal_of_followWithin {spot : Spot}
    (hlink : ∀ place names, fs.followWithin .follow hops place names = .ok spot →
      ∃ n < hops, fs.Leads place names n spot.place ∧ spot.entry = fs.get? spot.place) :
    ∀ names place, fs.locateWithin .follow hops place names = .ok spot →
      fs.IsGoal place names hops spot := by
  intro names
  induction names with
  | nil =>
      intro place h
      rw [locateWithin_nil] at h
      rw [← Except.ok.inj h]
      exact ⟨0, Nat.zero_le hops, .done place, rfl⟩
  | cons name rest ih =>
      intro place h
      by_cases hdir : fs.hasDirectory place = true
      · rcases name_cases name with hidle | rfl | hstep
        · rw [locateWithin_idle hdir hidle] at h
          obtain ⟨n, hn, hleads, hentry⟩ := ih place h
          exact ⟨n, hn, .idle hdir hidle hleads, hentry⟩
        · rw [locateWithin_up hdir] at h
          obtain ⟨n, hn, hleads, hentry⟩ := ih place.dropLast h
          exact ⟨n, hn, .up hdir hleads, hentry⟩
        · rw [locateWithin_step hdir hstep] at h
          split at h
          · cases h
          · split at h
            · -- the last name may be missing
              rename_i hget
              split at h
              · rename_i hrest
                rw [List.isEmpty_iff.mp hrest, ← Except.ok.inj h]
                have hnone : fs.linkAt? place name = none :=
                  linkAt?_eq_none fun target htarget => nomatch hget.symm.trans htarget
                exact ⟨0, Nat.zero_le hops, .down hdir hstep hnone (.done _), hget.symm⟩
              · cases h
            · rename_i target hget
              obtain ⟨n, hn, hleads, hentry⟩ := hlink _ _ h
              exact ⟨n + 1, hn, .link hstep (linkAt?_eq_some_iff.mpr ⟨hdir, hget⟩) hleads, hentry⟩
            · rename_i entry hplain hget
              have hnone : fs.linkAt? place name = none :=
                linkAt?_eq_none fun target htarget =>
                  hplain target (Option.some.inj (hget.symm.trans htarget))
              obtain ⟨n, hn, hleads, hentry⟩ := ih _ h
              exact ⟨n, hn, .down hdir hstep hnone hleads, hentry⟩
      · rw [locateWithin_outside hdir] at h
        cases h

/-- **WHAT THE SYSTEM FINDS** is the goal of a walk. -/
theorem isGoal_of_locateWithin :
    ∀ hops names place spot, fs.locateWithin .follow hops place names = .ok spot →
      fs.IsGoal place names hops spot := by
  intro hops
  induction hops with
  | zero =>
      intro names place spot h
      refine isGoal_of_followWithin (fun place' names' hfound => ?_) names place h
      have hloop : Except.error FileFault.linkLoop = .ok spot := hfound
      cases hloop
  | succ hops ih =>
      intro names place spot h
      refine isGoal_of_followWithin (fun place' names' hfound => ?_) names place h
      obtain ⟨n, hn, hleads, hentry⟩ := ih names' place' spot hfound
      exact ⟨n, Nat.lt_succ_of_le hn, hleads, hentry⟩

theorem isGoal_of_locate {spot : Spot} (h : fs.locate .follow path = .ok spot) :
    fs.IsGoal (fs.startOf path) path.names maxHops spot := by
  rw [locate] at h
  split at h
  · cases h
  · split at h
    · cases h
    · exact isGoal_of_locateWithin _ _ _ _ h

theorem isFile_iff {path : Path} :
    fs.isFile path = true ↔ ∃ place bytes stamp,
      fs.locate .follow path = .ok ⟨place, some (.file bytes stamp)⟩ := by
  rw [isFile, stat]
  constructor
  · intro h
    match hfound : fs.locate .follow path with
    | .ok ⟨place, some (.file bytes stamp)⟩ => exact ⟨place, bytes, stamp, rfl⟩
    | .ok ⟨_, some .directory⟩ => rw [hfound] at h; cases h
    | .ok ⟨_, some (.link _)⟩ => rw [hfound] at h; cases h
    | .ok ⟨_, none⟩ => rw [hfound] at h; cases h
    | .error _ => rw [hfound] at h; cases h
  · rintro ⟨place, bytes, stamp, hfound⟩
    rw [hfound]

theorem isOverlong_iff {path : Path} :
    fs.isOverlong path = true ↔ fs.locate .follow path = .error .nameTooLong := by
  rw [isOverlong, stat]
  cases fs.locate .follow path with
  | ok spot =>
      obtain ⟨place, entry⟩ := spot
      cases entry <;> simp
  | error fault => cases fault <;> simp

/-! ## From walks to the system -/

/-- What the system makes of a walk: its goal, or a complaint about a long name. -/
def Finds (fs : Files) (goal : Place) (found : Except FileFault Spot) : Prop :=
  found = .ok ⟨goal, fs.get? goal⟩ ∨ found = .error .nameTooLong

/-- **WALKS ARE FOUND** when they pass through few enough links. -/
theorem locateWithin_of_leads (h : fs.Leads place names n goal) :
    ∀ {hops}, n ≤ hops → fs.Finds goal (fs.locateWithin .follow hops place names) := by
  induction h with
  | done place =>
      intro hops _
      exact .inl locateWithin_nil
  | idle hdir hidle _ ih =>
      intro hops hn
      rw [locateWithin_idle hdir hidle]
      exact ih hn
  | up hdir _ ih =>
      intro hops hn
      rw [locateWithin_up hdir]
      exact ih hn
  | @down place goal name rest n hdir hstep hnone htail ih =>
      intro hops hn
      rw [locateWithin_step hdir hstep]
      split
      · exact .inr rfl
      · split
        · -- nothing is behind a missing name, so it is the last
          rename_i hget
          cases htail with
          | done => exact .inl (by rw [hget]; rfl)
          | idle hdir' _ _ => rw [hasDirectory_iff, hget] at hdir'; cases hdir'
          | up hdir' _ => rw [hasDirectory_iff, hget] at hdir'; cases hdir'
          | down hdir' _ _ _ => rw [hasDirectory_iff, hget] at hdir'; cases hdir'
          | link _ hsome _ =>
              have hdir' := (linkAt?_eq_some_iff.mp hsome).1
              rw [hasDirectory_iff, hget] at hdir'
              cases hdir'
        · rename_i target hget
          rw [linkAt?_eq_some_iff.mpr ⟨hdir, hget⟩] at hnone
          cases hnone
        · exact ih hn
  | link hstep hsome _ ih =>
      intro hops hn
      obtain ⟨hdir, hget⟩ := linkAt?_eq_some_iff.mp hsome
      rw [locateWithin_step hdir hstep]
      split
      · exact .inr rfl
      · rw [hget]
        obtain ⟨hops, rfl⟩ := Nat.exists_eq_succ_of_ne_zero (Nat.ne_zero_of_lt hn)
        exact ih (Nat.le_of_lt_succ hn)

/-- A path is found along a walk, or is too long. -/
theorem locate_of_leads (hne : path.rooted = true ∨ path.names ≠ [[]])
    (h : fs.Leads (fs.startOf path) path.names n goal) (hn : n ≤ maxHops) :
    fs.Finds goal (fs.locate .follow path) := by
  rw [locate, if_neg (by rcases hne with hrooted | hnames <;> simp [*])]
  split
  · exact .inr rfl
  · exact locateWithin_of_leads h hn

/-- What the system tells of a plain place: what is there, if anything, or that it is too
    far down.  No links turn in a circle. -/
theorem stat_plain (h : fs.Plain place) :
    fs.stat (toPlace place) = (fs.get? place).elim (.error .missing) .ok
      ∨ fs.stat (toPlace place) = .error .nameTooLong := by
  have hleads : fs.Leads (fs.startOf (toPlace place)) (toPlace place).names 0 place := h.leads
  rcases locate_of_leads (.inl rfl) hleads (Nat.zero_le _) with hfound | hlong
  · left
    rw [stat, hfound]
    cases fs.get? place <;> rfl
  · right
    rw [stat, hlong]

end NoteDigest.Files
