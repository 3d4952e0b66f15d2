import NoteDigest.Files.Change
import NoteDigest.Proofs.Files.WellFormed

/-! # Changing — well-formed trees stay well-formed

    A change puts an entry at a place that was found by following a path, or takes one
    away.  Such a place has the names of entries, since these come from pieces of paths
    (`stands_of_locate`), and no directory is ever replaced or taken away.  So every
    change keeps the tree well-formed, be it a single one (`WellFormed.write` and its
    like) or one of many steps (`Change.Keeps`), whether it succeeds or fails. -/

namespace NoteDigest

/-! ## One thing after another -/

section Runs

variable {ε σ α β : Type} {act : ExceptT ε (StateM σ) α} {next : α → ExceptT ε (StateM σ) β}
  {before after : σ}

/-- What comes next goes on with what has been done. -/
theorem run_bind_of_ok {value : α} (h : act before = (.ok value, after)) :
    (act >>= next) before = next value after := by
  show (ExceptT.bindCont next (act before).1 : StateM σ (Except ε β)) (act before).2 = _
  rw [h]
  rfl

/-- The first fault is the end. -/
theorem run_bind_of_error {fault : ε} (h : act before = (.error fault, after)) :
    (act >>= next) before = (.error fault, after) := by
  show (ExceptT.bindCont next (act before).1 : StateM σ (Except ε β)) (act before).2 = _
  rw [h]
  rfl

/-- The result of one thing after another is what the second makes of that of the first. -/
theorem result_bind {result : Except ε α} (h : act before = (result, after)) :
    ((act >>= next) before).1 = result.bind fun value => (next value after).1 := by
  cases result with
  | ok value => rw [run_bind_of_ok h, Except.bind]
  | error fault => rw [run_bind_of_error h, Except.bind]

/-- What succeeds has gone on with what its first part gave. -/
theorem exists_of_run_bind_ok {value : β} (h : (act >>= next) before = (.ok value, after)) :
    ∃ found middle, act before = (.ok found, middle)
      ∧ next found middle = (.ok value, after) := by
  rcases hact : act before with ⟨fault | found, middle⟩
  · rw [run_bind_of_error hact] at h
    cases h
  · rw [run_bind_of_ok hact] at h
    exact ⟨found, middle, rfl, h⟩

end Runs

namespace Files

open NoteDigest.Path

variable {fs fs' : Files} {place : Place} {name : Name} {path : Path} {spot : Spot}
  {entry : Entry} {ending : Ending} {hops : Nat} {target : Text} {bytes : ByteArray}
  {stamp : Stamp}

/-! ## What is found -/

/-- A spot in the tree: its place has the names of entries, and its entry is the one there. -/
def Stands (fs : Files) (spot : Spot) : Prop :=
  (∀ name ∈ spot.place, IsName name) ∧ spot.entry = fs.get? spot.place

/-- The target of a link is written in pieces. -/
theorem isPiece_target (hfs : fs.WellFormed)
    (hlink : fs.get? (place ++ [name]) = some (.link target)) :
    ∀ piece ∈ (ofText target).names, IsPiece piece := by
  have hproper := hfs.proper _ (mem_entries_of_get? (by simp) hlink)
  have htarget : Text.hasNul target = false := by
    simpa [Entry.isProper] using hproper
  exact isPiece_ofText htarget

theorem isName_linkStart (hplace : ∀ name ∈ place, IsName name) (target : Text) :
    ∀ name ∈ linkStart place target, IsName name := by
  rw [linkStart]
  split
  · exact List.forall_mem_nil _
  · exact hplace

/-- **ONE NAME FURTHER**: what is found along pieces of a path stands in the tree, if what is
    found behind their links does. -/
theorem stands_of_followWithin (hfs : fs.WellFormed)
    (hlink : ∀ place names, (∀ name ∈ place, IsName name) → (∀ name ∈ names, IsPiece name) →
      fs.followWithin ending hops place names = .ok spot → fs.Stands spot) :
    ∀ names place, (∀ name ∈ place, IsName name) → (∀ name ∈ names, IsPiece name) →
      fs.locateWithin ending hops place names = .ok spot → fs.Stands spot := by
  intro names
  induction names with
  | nil =>
      intro place hplace _ h
      rw [locateWithin_nil] at h
      rw [← Except.ok.inj h]
      exact ⟨hplace, rfl⟩
  | cons name rest ih =>
      intro place hplace hnames h
      obtain ⟨hpiece, hrest⟩ := List.forall_mem_cons.mp hnames
      by_cases hdir : fs.hasDirectory place = true
      · rcases name_cases name with hidle | rfl | hstep
        · rw [locateWithin_idle hdir hidle] at h
          exact ih place hplace hrest h
        · rw [locateWithin_up hdir] at h
          exact ih _ (fun x hx => hplace x (List.mem_of_mem_dropLast hx)) hrest h
        · -- a piece that leads down is the name of an entry
          have hchild : ∀ x ∈ place ++ [name], IsName x :=
            List.forall_mem_append.mpr
              ⟨hplace, List.forall_mem_singleton.mpr (hpiece.isName hstep)⟩
          rw [locateWithin_down hdir hstep] at h
          split at h
          · cases h
          · split at h
            · cases h
            · split at h
              · rename_i hnone
                split at h
                · rw [← Except.ok.inj h]
                  exact ⟨hchild, hnone.symm⟩
                · cases h
              · rename_i target hsome
                split at h
                · rw [← Except.ok.inj h]
                  exact ⟨hchild, hsome.symm⟩
                · have htarget := isPiece_target hfs hsome
                  exact hlink _ _ (isName_linkStart hplace target)
                    (List.forall_mem_append.mpr ⟨htarget, hrest⟩) h
              · exact ih _ hchild hrest h
      · rw [locateWithin_outside hdir] at h
        cases h

theorem stands_of_locateWithin (hfs : fs.WellFormed) :
    ∀ hops names place, (∀ name ∈ place, IsName name) → (∀ name ∈ names, IsPiece name) →
      fs.locateWithin ending hops place names = .ok spot → fs.Stands spot := by
  intro hops
  induction hops with
  | zero =>
      refine stands_of_followWithin hfs ?_
      intro place names _ _ hloop
      cases hloop
  | succ hops ih => exact stands_of_followWithin hfs fun place names => ih names place

/-- **WHAT IS FOUND STANDS IN THE TREE**, whatever is wanted of the last name. -/
theorem stands_of_locate (hfs : fs.WellFormed) (hpath : ∀ name ∈ path.names, IsPiece name)
    (h : fs.locate ending path = .ok spot) : fs.Stands spot := by
  have hhere : ∀ name ∈ fs.here, IsName name :=
    hfs.isName (Option.isSome_of_eq_some (hasDirectory_iff.mp hfs.directory))
  have hstart : ∀ name ∈ fs.startOf path, IsName name := by
    rw [startOf]
    split
    · exact List.forall_mem_nil _
    · exact hhere
  rw [locate] at h
  split at h
  · cases h
  · split at h
    · cases h
    · exact stands_of_locateWithin hfs _ _ _ hstart hpath h

theorem Stands.not_hasDirectory (h : fs.Stands spot) (hne : spot.entry ≠ some .directory) :
    fs.hasDirectory spot.place = false := by
  rw [Bool.eq_false_iff]
  intro hdir
  exact hne (h.2.trans (hasDirectory_iff.mp hdir))

/-! ## Single changes -/

/-- A file is written to the spot that is found, and no directory gives way to it. -/
theorem write_eq_ok (h : fs.write path bytes stamp = .ok fs') :
    ∃ spot, fs.locate .write path = .ok spot ∧ spot.entry ≠ some .directory ∧
      fs' = fs.put spot.place (.file bytes stamp) := by
  rw [write] at h
  split at h
  · cases h
  · rename_i place entry hfile hspot
    exact ⟨_, hspot, hfile, (Except.ok.inj h).symm⟩
  · cases h

/-- A new entry goes where nothing is. -/
theorem add_eq_ok (h : fs.add path entry = .ok fs') :
    ∃ place, fs.locate .keep path = .ok ⟨place, none⟩ ∧ fs' = fs.put place entry := by
  rw [add] at h
  split at h
  · rename_i place hspot
    exact ⟨place, hspot, (Except.ok.inj h).symm⟩
  · cases h
  · cases h

/-- What is taken away was there, and was no directory. -/
theorem remove_eq_ok (h : fs.remove path = .ok fs') :
    ∃ place old, fs.locate .keep path = .ok ⟨place, some old⟩ ∧ old ≠ .directory ∧
      fs' = fs.erase place := by
  rw [remove] at h
  split at h
  · cases h
  · cases h
  · rename_i place old hfile hspot
    exact ⟨place, old, hspot, hfile, (Except.ok.inj h).symm⟩
  · cases h

namespace WellFormed

/-- **WRITTEN, ADDED, LINKED, REMOVED**: the tree stays well-formed. -/
theorem write (hfs : fs.WellFormed) (hpath : ∀ name ∈ path.names, IsPiece name)
    (h : fs.write path bytes stamp = .ok fs') : fs'.WellFormed := by
  obtain ⟨spot, hfound, hfile, rfl⟩ := write_eq_ok h
  have hstands := stands_of_locate hfs hpath hfound
  exact hfs.put hstands.1 (hstands.not_hasDirectory hfile) rfl

theorem add (hfs : fs.WellFormed) (hpath : ∀ name ∈ path.names, IsPiece name)
    (hentry : entry.isProper = true) (h : fs.add path entry = .ok fs') : fs'.WellFormed := by
  obtain ⟨place, hfound, rfl⟩ := add_eq_ok h
  have hstands := stands_of_locate hfs hpath hfound
  exact hfs.put hstands.1 (hstands.not_hasDirectory nofun) hentry

theorem addLink (hfs : fs.WellFormed) (hpath : ∀ name ∈ path.names, IsPiece name)
    (htarget : Text.hasNul target = false) (h : fs.addLink path target = .ok fs') :
    fs'.WellFormed := by
  have hentry : (Entry.link target).isProper = true := by
    rw [Entry.isProper, htarget]
    rfl
  rw [Files.addLink] at h
  split at h
  · cases h
  · split at h
    · cases h
    · exact hfs.add hpath hentry h

theorem remove (hfs : fs.WellFormed) (hpath : ∀ name ∈ path.names, IsPiece name)
    (h : fs.remove path = .ok fs') : fs'.WellFormed := by
  obtain ⟨place, old, hfound, hold, rfl⟩ := remove_eq_ok h
  have hstands := stands_of_locate hfs hpath hfound
  refine hfs.erase (hstands.not_hasDirectory ?_)
  intro hdir
  exact hold (Option.some.inj hdir)

end WellFormed

/-! ## Changes of many steps -/

namespace Change

variable {α β : Type} {inv : Files → Prop} {act : Change α} {n : Nat}

/-- What is done without a fault is not handled. -/
theorem tryCatch_ok {handle : FileFault → Change α} {value : α}
    (h : act fs = (.ok value, fs')) : (tryCatch act handle : Change α) fs = (.ok value, fs') := by
  simp only [MonadExcept.tryCatch, tryCatchThe, MonadExceptOf.tryCatch, ExceptT.tryCatch,
    ExceptT.mk]
  simp only [bind]
  simp only [StateT.bind, bind, h]
  rfl

/-- A fault is handled in the tree that is left. -/
theorem tryCatch_error {handle : FileFault → Change α} {fault : FileFault}
    (h : act fs = (.error fault, fs')) :
    (tryCatch act handle : Change α) fs = handle fault fs' := by
  simp only [MonadExcept.tryCatch, tryCatchThe, MonadExceptOf.tryCatch, ExceptT.tryCatch,
    ExceptT.mk]
  simp only [bind]
  simp only [StateT.bind, bind, h]

/-- What holds of the tree before a change holds after it, be it done or broken off. -/
def Keeps (inv : Files → Prop) (act : Change α) : Prop :=
  ∀ fs, inv fs → inv (act fs).2

theorem Keeps.pure (value : α) : Keeps inv (pure value) :=
  fun _ hfs => hfs

theorem Keeps.throw (fault : FileFault) : Keeps inv (throw fault : Change α) :=
  fun _ hfs => hfs

/-- **ONE AFTER THE OTHER**: when the first fails, the tree is as it left it. -/
theorem Keeps.bind {next : α → Change β} (hact : Keeps inv act)
    (hnext : ∀ value, Keeps inv (next value)) : Keeps inv (act >>= next) := by
  intro fs hfs
  have hmid := hact fs hfs
  show inv ((ExceptT.bindCont next (act fs).1) (act fs).2).2
  cases (act fs).1 with
  | error fault => exact hmid
  | ok value => exact hnext value _ hmid

/-- What is done next may depend on the tree that is there. -/
theorem Keeps.get_bind {next : Files → Change α}
    (hnext : ∀ fs, inv fs → inv (next fs fs).2) : Keeps inv (get >>= next) :=
  fun fs hfs => hnext fs hfs

/-- **ONE INSTEAD OF THE OTHER**: what the first has done before its fault stays done. -/
theorem Keeps.tryCatch {handle : FileFault → Change α} (hact : Keeps inv act)
    (hhandle : ∀ fault, Keeps inv (handle fault)) : Keeps inv (tryCatch act handle) := by
  intro fs hfs
  have hmid := hact fs hfs
  obtain ⟨outcome, mid, hrun⟩ : ∃ outcome mid, act fs = (outcome, mid) := ⟨_, _, rfl⟩
  rw [hrun] at hmid
  cases outcome with
  | ok value => rwa [tryCatch_ok hrun]
  | error fault =>
      rw [tryCatch_error hrun]
      exact hhandle fault mid hmid

theorem Keeps.apply {step : Files → Except FileFault Files}
    (hstep : ∀ fs fs', inv fs → step fs = .ok fs' → inv fs') : Keeps inv (apply step) := by
  refine Keeps.get_bind fun fs hfs => ?_
  cases hnew : step fs with
  | error fault => exact hfs
  | ok fs' => exact hstep fs fs' hfs hnew

/-- A fault that does not count where a directory is. -/
theorem keeps_unlessDirectory (path : Path) (fault : FileFault) :
    Keeps inv (do if (← get).isDirectory path then return else throw fault : Change Unit) := by
  refine Keeps.get_bind fun fs hfs => ?_
  cases fs.isDirectory path with
  | false => exact hfs
  | true => exact hfs

theorem Keeps.makeOne
    (hadd : ∀ fs fs', inv fs → fs.add path .directory = .ok fs' → inv fs') :
    Keeps inv (makeDirectories.makeOne path) := by
  refine Keeps.get_bind fun fs hfs => ?_
  cases hnew : fs.add path .directory with
  | ok fs' => exact hadd fs fs' hfs hnew
  | error fault => exact keeps_unlessDirectory path fault fs hfs

theorem keeps_makeOne (hpath : ∀ name ∈ path.names, IsPiece name) :
    Keeps WellFormed (makeDirectories.makeOne path) :=
  Keeps.makeOne fun _ _ hfs hnew => hfs.add hpath rfl hnew

/-- **DIRECTORIES MADE** on the way down: by induction on how many names may be missing. -/
theorem keeps_makeDirectories (n : Nat) :
    ∀ path : Path, (∀ name ∈ path.names, IsPiece name) →
      Keeps WellFormed (makeDirectories n path) := by
  induction n with
  | zero =>
      intro path hpath
      exact keeps_makeOne hpath
  | succ n ih =>
      intro path hpath
      have hparent : ∀ name ∈ path.parent.names, IsPiece name :=
        fun name hname => hpath name (List.mem_of_mem_dropLast hname)
      refine Keeps.get_bind fun fs hfs => ?_
      cases hnew : fs.add path .directory with
      | ok fs' => exact hfs.add hpath rfl hnew
      | error fault =>
          cases fault with
          | missing =>
              exact Keeps.bind (ih path.parent hparent) (fun _ => keeps_makeOne hpath) fs hfs
          | _ => exact keeps_unlessDirectory path _ fs hfs

theorem keeps_makeDirectory (hpath : ∀ name ∈ path.names, IsPiece name) :
    Keeps WellFormed (makeDirectory path) := by
  refine Keeps.tryCatch (keeps_makeDirectories _ path hpath) fun fault => ?_
  refine Keeps.get_bind fun fs hfs => ?_
  cases fs.isOverlong path with
  | false => exact hfs
  | true => exact hfs

/-- **A FILE WRITTEN** with the directories above it leaves a well-formed tree, also when the
    writing fails after the directories were made. -/
theorem keeps_writeWithParents (hpath : ∀ name ∈ path.names, IsPiece name) (bytes : ByteArray)
    (stamp : Stamp) : Keeps WellFormed (writeWithParents path bytes stamp) := by
  have hparent : ∀ name ∈ path.parent.names, IsPiece name :=
    fun name hname => hpath name (List.mem_of_mem_dropLast hname)
  refine Keeps.bind (keeps_makeDirectory hparent) fun _ => ?_
  exact Keeps.apply fun fs fs' hfs h => hfs.write hpath h

theorem Keeps.allowPresent {act : Change Unit} (hact : Keeps inv act) :
    Keeps inv (allowPresent act) := by
  refine hact.tryCatch fun fault => ?_
  split
  · exact Keeps.pure ()
  · exact Keeps.throw fault

/-- **A WAY MADE** down to a place: by induction on its names, from the bottom up. -/
theorem Keeps.makeWay (upwards : List Name)
    (hadd : ∀ path : Path, (∀ name ∈ path.names, name ∈ upwards) →
      ∀ fs fs', inv fs → fs.add path .directory = .ok fs' → inv fs') :
    Keeps inv (makeWay upwards) := by
  induction upwards with
  | nil => exact Keeps.pure ()
  | cons name above ih =>
      have hall : ∀ x ∈ (Path.toPlace (name :: above).reverse).names, x ∈ name :: above :=
        fun x hx => List.mem_reverse.mp hx
      have hlast := Keeps.makeOne (hadd _ hall)
      have habove := ih fun path hpath =>
        hadd path fun x hx => List.mem_cons_of_mem name (hpath x hx)
      refine Keeps.get_bind fun fs hfs => ?_
      split
      · exact Keeps.bind habove.allowPresent (fun _ => hlast) fs hfs
      · exact Keeps.bind (Keeps.pure ()) (fun _ => hlast) fs hfs

theorem keeps_makeWay (upwards : List Name) (hnames : ∀ name ∈ upwards, IsPiece name) :
    Keeps WellFormed (Change.makeWay upwards) :=
  Keeps.makeWay upwards fun _ hpath _ _ hfs hnew =>
    hfs.add (fun name hname => hnames name (hpath name hname)) rfl hnew

end Change

end Files
end NoteDigest
