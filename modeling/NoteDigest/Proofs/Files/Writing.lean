import NoteDigest.Proofs.Files.Alike
import NoteDigest.Proofs.Files.Changing

/-! # Writing — what is written is read again

    Whoever follows a path is not led astray by a file put where there was nothing, or where
    a file was before: what was found is found again, at the same place
    (`locate_put`).  So a file that has been written is read as it was written, and can be
    written again by the same path (`locate_of_write`, `read_of_locate`), and what was
    present stays so (`isPresent_put`).  Whether writing succeeds has nothing to do with what
    is written (`write_of_locate`).

    In the same way a directory that has been made is there (`isDirectory_of_makeOne`). -/

namespace NoteDigest.Files

open NoteDigest.Path

variable {fs fs' : Files} {place start : Place} {names : List Name} {path : Path}
  {spot : Spot} {entry : Entry} {ending : Ending} {hops : Nat} {bytes bytes' : ByteArray}
  {stamp stamp' : Stamp}

/-! ## What is found whatever is wanted of the last name -/

/-- **ONE NAME FURTHER**: what is found is found when all links are followed, if it is so
    behind the links; nothing is found that is a link and to be kept. -/
theorem locateWithin_follow_of
    (hlink : ∀ start names, fs.followWithin ending hops start names = .ok spot →
      fs.followWithin .follow hops start names = .ok spot)
    (hspot : ending = .keep → ∀ target, spot.entry ≠ some (.link target)) :
    ∀ names start, fs.locateWithin ending hops start names = .ok spot →
      fs.locateWithin .follow hops start names = .ok spot := by
  intro names
  induction names with
  | nil =>
      intro start h
      rw [locateWithin_nil] at h ⊢
      exact h
  | cons name rest ih =>
      intro start h
      by_cases hdir : fs.hasDirectory start = true
      · rcases name_cases name with hidle | rfl | hstep
        · rw [locateWithin_idle hdir hidle] at h ⊢
          exact ih start h
        · rw [locateWithin_up hdir] at h ⊢
          exact ih start.dropLast h
        · rw [locateWithin_down hdir hstep] at h
          rw [locateWithin_step hdir hstep]
          split at h
          · cases h
          · by_cases hlong : isLongName name = true
            · rw [if_pos hlong] at h
              cases h
            · rw [if_neg hlong] at h ⊢
              cases hchild : fs.get? (start ++ [name]) with
              | none =>
                  rw [hchild] at h
                  exact h
              | some entry =>
                  rw [hchild] at h
                  cases entry with
                  | file bytes stamp => exact ih _ h
                  | directory => exact ih _ h
                  | link target =>
                      dsimp only at h
                      split at h
                      · -- a link that is kept is the spot itself
                        rename_i hkept
                        have hkeep : ending = .keep :=
                          eq_of_beq (Bool.and_eq_true_iff.mp hkept).2
                        rw [← Except.ok.inj h] at hspot
                        exact absurd rfl (hspot hkeep target)
                      · exact hlink _ _ h
      · rw [locateWithin_outside hdir] at h
        cases h

/-- **WHAT IS FOUND** is found when all links are followed, unless a link was to be kept. -/
theorem locate_follow_of (h : fs.locate ending path = .ok spot)
    (hspot : ending = .keep → ∀ target, spot.entry ≠ some (.link target)) :
    fs.locate .follow path = .ok spot := by
  have hwithin : ∀ hops names start, fs.locateWithin ending hops start names = .ok spot →
      fs.locateWithin .follow hops start names = .ok spot := by
    intro hops
    induction hops with
    | zero => exact locateWithin_follow_of (fun _ _ hloop => nomatch hloop) hspot
    | succ hops ih => exact locateWithin_follow_of (fun start names => ih names start) hspot
  rw [locate] at h ⊢
  split at h
  · cases h
  · rename_i hempty
    rw [if_neg hempty]
    split at h
    · cases h
    · rename_i hlong
      rw [if_neg hlong]
      exact hwithin _ _ _ h

/-- No link is found by following all links. -/
theorem ne_link_of_locate (hfs : fs.WellFormed) (h : fs.locate .follow path = .ok spot)
    (target : Text) : spot.entry ≠ some (.link target) := by
  intro hlink
  obtain ⟨n, -, hleads, hentry⟩ := isGoal_of_locate h
  have hplain := hleads.plain (hfs.plain_startOf path)
  have hget : fs.get? spot.place = some (.link target) := hentry.symm.trans hlink
  rcases List.eq_nil_or_concat spot.place with htop | ⟨above, name, hplace⟩
  · rw [htop] at hget
    cases hget
  · rw [List.concat_eq_append] at hplace
    obtain ⟨hdir, -, hnone⟩ := hplain above name (hplace ▸ List.prefix_rfl)
    rw [hplace] at hget
    cases hnone.symm.trans (linkAt?_eq_some_iff.mpr ⟨hdir, hget⟩)

/-! ## An entry put where nothing is, or a file -/

/-- Nothing is at a place, or a file. -/
def IsVacant (fs : Files) (place : Place) : Prop :=
  fs.get? place = none ∨ fs.HasFile place

namespace IsVacant

theorem not_hasDirectory (h : fs.IsVacant place) : fs.hasDirectory place = false := by
  rcases h with hnone | ⟨_, _, hfile⟩
  · rw [hasDirectory, hnone]
  · exact hasDirectory_of_file hfile

theorem get?_put (h : fs.IsVacant place) (entry : Entry) (other : Place) :
    (fs.put place entry).get? other = if other = place then some entry else fs.get? other :=
  Files.get?_put (ne_nil_of_not_hasDirectory h.not_hasDirectory) entry other

theorem get?_put_self (h : fs.IsVacant place) (entry : Entry) :
    (fs.put place entry).get? place = some entry := by
  rw [h.get?_put, if_pos rfl]

theorem hasDirectory_put (h : fs.IsVacant place) (entry : Entry) {other : Place}
    (hdir : fs.hasDirectory other = true) : (fs.put place entry).hasDirectory other = true := by
  rw [hasDirectory_iff] at hdir ⊢
  rw [h.get?_put, if_neg (ne_of_hasDirectory h.not_hasDirectory (hasDirectory_iff.mpr hdir)), hdir]

/-- **ONE NAME FURTHER**: names lead to the same place, if what is behind their links does. -/
theorem followWithin_put (h : fs.IsVacant place) (hentry : ∀ target, entry ≠ .link target)
    (hlink : ∀ start names, fs.followWithin ending hops start names = .ok spot →
      (fs.put place entry).followWithin ending hops start names
        = .ok ⟨spot.place, (fs.put place entry).get? spot.place⟩) :
    ∀ names start, fs.locateWithin ending hops start names = .ok spot →
      (fs.put place entry).locateWithin ending hops start names
        = .ok ⟨spot.place, (fs.put place entry).get? spot.place⟩ := by
  intro names
  induction names with
  | nil =>
      intro start hfound
      rw [locateWithin_nil] at hfound ⊢
      rw [← Except.ok.inj hfound]
  | cons name rest ih =>
      intro start hfound
      by_cases hdir : fs.hasDirectory start = true
      · have hdir' := h.hasDirectory_put entry hdir
        rcases name_cases name with hidle | rfl | hstep
        · rw [locateWithin_idle hdir hidle] at hfound
          rw [locateWithin_idle hdir' hidle]
          exact ih start hfound
        · rw [locateWithin_up hdir] at hfound
          rw [locateWithin_up hdir']
          exact ih start.dropLast hfound
        · rw [locateWithin_down hdir hstep] at hfound
          rw [locateWithin_down hdir' hstep]
          split at hfound
          · cases hfound
          · rename_i hslash
            rw [if_neg hslash]
            split at hfound
            · cases hfound
            · rename_i hlong
              rw [if_neg hlong]
              by_cases hchild : start ++ [name] = place
              · -- the way ends where the entry is put, or leads past the file there
                have hpast : (fs.put place entry).locateWithin ending hops place rest
                    = .ok ⟨spot.place, (fs.put place entry).get? spot.place⟩ := by
                  rw [hchild] at hfound
                  rcases h with hnone | ⟨_, _, hfile⟩
                  · rw [hnone] at hfound
                    dsimp only at hfound
                    split at hfound
                    · rename_i hrest
                      rw [List.isEmpty_iff.mp hrest, locateWithin_nil, ← Except.ok.inj hfound]
                    · cases hfound
                  · rw [hfile] at hfound
                    exact ih place hfound
                rw [hchild, h.get?_put_self]
                cases entry with
                | link target => exact absurd rfl (hentry target)
                | file _ _ => exact hpast
                | directory => exact hpast
              · have hsame := h.get?_put entry (start ++ [name])
                rw [if_neg hchild] at hsame
                rw [hsame]
                split at hfound
                · split at hfound
                  · rename_i hnone hrest
                    rw [if_pos hrest, ← Except.ok.inj hfound, hsame, hnone]
                  · cases hfound
                · split at hfound
                  · rename_i hsome hkept
                    rw [if_pos hkept, ← Except.ok.inj hfound, hsame, hsome]
                  · rename_i hkept
                    rw [if_neg hkept]
                    exact hlink _ _ hfound
                · exact ih _ hfound
      · rw [locateWithin_outside hdir] at hfound
        cases hfound

end IsVacant

/-- **WHAT WAS FOUND IS FOUND AGAIN** at the same place, after an entry other than a link has
    been put where there was nothing, or a file. -/
theorem locate_put (hplace : fs.IsVacant place) (entry : Entry)
    (hentry : ∀ target, entry ≠ .link target) (h : fs.locate ending path = .ok spot) :
    (fs.put place entry).locate ending path
      = .ok ⟨spot.place, (fs.put place entry).get? spot.place⟩ := by
  have hwithin : ∀ hops names start, fs.locateWithin ending hops start names = .ok spot →
      (fs.put place entry).locateWithin ending hops start names
        = .ok ⟨spot.place, (fs.put place entry).get? spot.place⟩ := by
    intro hops
    induction hops with
    | zero => exact hplace.followWithin_put hentry fun _ _ hloop => nomatch hloop
    | succ hops ih => exact hplace.followWithin_put hentry fun start names => ih names start
  have hstart : (fs.put place entry).startOf path = fs.startOf path := rfl
  rw [locate] at h ⊢
  split at h
  · cases h
  · rename_i hempty
    rw [if_neg hempty]
    split at h
    · cases h
    · rename_i hlong
      rw [if_neg hlong, hstart]
      exact hwithin _ _ _ h

/-- **WHAT IS PRESENT STAYS SO.** -/
theorem isPresent_put (hplace : fs.IsVacant place) (hentry : ∀ target, entry ≠ .link target)
    (h : fs.isPresent path = true) : (fs.put place entry).isPresent path = true := by
  rw [isPresent, stat] at h ⊢
  split at h
  · rename_i found old hfound
    obtain ⟨n, -, -, hold⟩ := isGoal_of_locate hfound
    have hsome : ∃ new, (fs.put place entry).get? found = some new := by
      rw [hplace.get?_put]
      split
      · exact ⟨entry, rfl⟩
      · exact ⟨old, hold.symm⟩
    obtain ⟨new, hnew⟩ := hsome
    rw [locate_put hplace entry hentry hfound, hnew]
    rfl
  · cases h
  · cases h

/-! ## Writing -/

/-- **WRITING SUCCEEDS** wherever no directory is found, whatever is written. -/
theorem write_of_locate (h : fs.locate .write path = .ok spot)
    (hspot : spot.entry ≠ some .directory) (bytes : ByteArray) (stamp : Stamp) :
    fs.write path bytes stamp = .ok (fs.put spot.place (.file bytes stamp)) := by
  obtain ⟨place, entry⟩ := spot
  rw [write, h]
  cases entry with
  | none => rfl
  | some entry =>
      cases entry with
      | directory => exact absurd rfl hspot
      | file _ _ => rfl
      | link _ => rfl

/-- What is found to be written to, if it is no directory, is nothing or a file. -/
theorem isVacant_of_locate (hfs : fs.WellFormed) (h : fs.locate .write path = .ok spot)
    (hspot : spot.entry ≠ some .directory) : fs.IsVacant spot.place := by
  have hfound := locate_follow_of h nofun
  obtain ⟨n, -, -, hentry⟩ := isGoal_of_locate hfound
  rw [IsVacant, HasFile, ← hentry]
  cases hkind : spot.entry with
  | none => exact .inl rfl
  | some entry =>
      cases entry with
      | file bytes stamp => exact .inr ⟨bytes, stamp, rfl⟩
      | directory => exact absurd hkind hspot
      | link target => exact absurd hkind (ne_link_of_locate hfs hfound target)

/-- **WHAT IS WRITTEN IS FOUND** by the path it was written by, at a place where there was
    nothing before, or a file. -/
theorem locate_of_write (hfs : fs.WellFormed) (h : fs.write path bytes stamp = .ok fs') :
    ∃ place, fs.IsVacant place ∧ fs' = fs.put place (.file bytes stamp)
      ∧ fs'.locate .write path = .ok ⟨place, some (.file bytes stamp)⟩ := by
  obtain ⟨spot, hfound, hspot, rfl⟩ := write_eq_ok h
  have hvacant := isVacant_of_locate hfs hfound hspot
  refine ⟨spot.place, hvacant, rfl, ?_⟩
  rw [locate_put hvacant (.file bytes stamp) (fun _ => nofun) hfound, hvacant.get?_put_self]

/-- **WHAT IS FOUND IS READ.** -/
theorem read_of_locate
    (h : fs.locate .write path = .ok ⟨place, some (.file bytes stamp)⟩) :
    fs.read path = .ok bytes := by
  have hwrite : Ending.write ≠ .keep := by decide
  rw [read, stat, locate_follow_of h fun hkeep => absurd hkeep hwrite]

/-! ## Making directories -/

theorem isPresent_of_isDirectory (h : fs.isDirectory path = true) :
    fs.isPresent path = true := by
  rw [isDirectory] at h
  rw [isPresent]
  split at h
  · rename_i hstat
    rw [hstat]
    rfl
  · cases h

/-- A directory that has been added is there. -/
theorem isDirectory_of_add (h : fs.add path .directory = .ok fs') :
    fs'.isDirectory path = true := by
  obtain ⟨place, hkept, rfl⟩ := add_eq_ok h
  have hfound := locate_follow_of hkept fun _ target hsame => by cases hsame
  obtain ⟨n, -, -, hnone⟩ := isGoal_of_locate hfound
  have hvacant : fs.IsVacant place := .inl hnone.symm
  have hlink : ∀ target, Entry.directory ≠ .link target := by
    intro target hsame
    cases hsame
  rw [isDirectory, stat, locate_put hvacant .directory hlink hfound, hvacant.get?_put_self]

namespace Change

/-- **A DIRECTORY THAT HAS BEEN MADE IS THERE**, be it new or not. -/
theorem isDirectory_of_makeOne (h : makeDirectories.makeOne path fs = (.ok (), fs')) :
    fs'.isDirectory path = true := by
  obtain ⟨found, middle, hget, h⟩ := exists_of_run_bind_ok h
  cases hget
  cases hnew : fs.add path .directory with
  | ok added =>
      simp only [hnew] at h
      cases h
      exact isDirectory_of_add hnew
  | error fault =>
      simp only [hnew] at h
      obtain ⟨found, middle, hget, h⟩ := exists_of_run_bind_ok h
      cases hget
      split at h
      · rename_i hdir
        cases h
        exact hdir
      · cases h

/-- A way that has been made leads to a directory. -/
theorem isDirectory_of_makeWay {name : Name} {above : List Name}
    (h : makeWay (name :: above) fs = (.ok (), fs')) :
    fs'.isDirectory (toPlace (name :: above).reverse) = true := by
  obtain ⟨found, middle, hget, h⟩ := exists_of_run_bind_ok h
  cases hget
  split at h
  · obtain ⟨_, middle, -, hlast⟩ := exists_of_run_bind_ok h
    exact isDirectory_of_makeOne hlast
  · exact isDirectory_of_makeOne h

/-- To make a way moves nobody to another directory. -/
theorem here_of_makeWay (upwards : List Name) (fs : Files) :
    (makeWay upwards fs).2.here = fs.here := by
  have hkeeps : Keeps (fun after => after.here = fs.here) (makeWay upwards) := by
    refine Keeps.makeWay upwards ?_
    intro path _ before after hbefore hadd
    obtain ⟨place, -, rfl⟩ := add_eq_ok hadd
    exact hbefore
  exact hkeeps fs rfl

end Change

end NoteDigest.Files
