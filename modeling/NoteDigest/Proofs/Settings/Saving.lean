import NoteDigest.Proofs.Files.Clearing
import NoteDigest.Proofs.Files.Writing
import NoteDigest.Proofs.Settings.Loading

/-! # Saving — settings that are kept are loaded again

    The text that settings are stored as is that of an object with one member for each
    toggle, whatever their values are (`parse_text`), so its bytes give the settings back
    (`ofBytes_text`).  Once settings have been saved, they are loaded by the same path
    (`Stored.load`), and other settings can be saved there (`Stored.save`): nothing of what
    the file held before is left. -/

namespace NoteDigest.Settings

open Json

variable {fs fs' middle : Files} {path : Text} {settings settings' : Settings}
  {stamp stamp' : Stamp}

/-! ## The text of settings -/

theorem isPlain_name (toggle : Toggle) : IsPlain toggle.name.toList := by
  cases toggle <;> decide

/-- A row is a name between quotes, a colon and a word. -/
theorem skipSpace_memberText (name : String) (value : Bool) (rest : Text) :
    skipSpace (memberText name value ++ rest)
      = '"' :: (name.toList ++ '"' :: ':' :: ' ' :: (truthText value ++ rest)) := by
  simp [memberText, skipSpace, isSpace]

/-- What is behind the colon of a row. -/
theorem skipSpace_truthText (value : Bool) (rest : Text) :
    skipSpace (' ' :: (truthText value ++ rest)) = truthText value ++ rest := by
  cases value <;> rfl

/-- **ONE ROW** is read as a member; what stands behind it decides how to go on. -/
theorem members_memberText {name : String} (hname : IsPlain name.toList) (value : Bool)
    (fuel room : Nat) (before : List (Text × Json)) (rest : Text) :
    members (fuel + 2) room before (skipSpace (memberText name value ++ rest))
      = match skipSpace rest with
        | '}' :: rest => .ok (putMember name.toList (.bool value) before, rest)
        | ',' :: rest =>
            members (fuel + 1) room (putMember name.toList (.bool value) before) (skipSpace rest)
        | _ => .error .malformed := by
  have hcolon : skipSpace (':' :: ' ' :: (truthText value ++ rest))
      = ':' :: ' ' :: (truthText value ++ rest) := rfl
  rw [skipSpace_memberText, members.eq_def]
  simp only [stringRest_append _ hname, bind, Except.bind, hcolon, skipSpace_truthText]
  rw [truthText, value_bool]
  rfl

/-- The rows of some toggles, as they stand in the text of settings. -/
def rowsText (settings : Settings) (toggles : List Toggle) : Text :=
  Text.joinWith [',', '\n']
    (toggles.map fun toggle => memberText toggle.name (settings.value toggle))

theorem text_eq (settings : Settings) :
    settings.text = '{' :: '\n' :: (settings.rowsText Toggle.all ++ ['\n', '}']) :=
  rfl

theorem rowsText_cons_cons (settings : Settings) (toggle next : Toggle) (others : List Toggle)
    (rest : Text) :
    settings.rowsText (toggle :: next :: others) ++ rest
      = memberText toggle.name (settings.value toggle)
        ++ ',' :: '\n' :: (settings.rowsText (next :: others) ++ rest) := by
  simp [rowsText, Text.joinWith]

/-- The members with those of some toggles put in. -/
def putToggles (settings : Settings) (toggles : List Toggle) (before : List (Text × Json)) :
    List (Text × Json) :=
  toggles.foldl (fun now toggle => putMember toggle.name.toList (.bool (settings.value toggle)) now)
    before

/-- **ALL ROWS** are read as members: by induction on the toggles that are left. -/
theorem members_rowsText (settings : Settings) (room extra : Nat) :
    ∀ (toggles : List Toggle) (before : List (Text × Json)), toggles ≠ [] →
      members (toggles.length + extra + 1) room before
          (skipSpace (settings.rowsText toggles ++ ['\n', '}']))
        = .ok (settings.putToggles toggles before, []) := by
  intro toggles
  induction toggles with
  | nil =>
      intro before hne
      exact absurd rfl hne
  | cons toggle rest ih =>
      intro before _
      have hfuel : (toggle :: rest).length + extra + 1 = rest.length + extra + 2 := by
        rw [List.length_cons]
        omega
      rw [hfuel]
      cases rest with
      | nil =>
          have hrow : settings.rowsText [toggle]
              = memberText toggle.name (settings.value toggle) := rfl
          rw [hrow, members_memberText (isPlain_name toggle)]
          rfl
      | cons next others =>
          rw [rowsText_cons_cons, members_memberText (isPlain_name toggle)]
          exact ih _ (List.cons_ne_nil next others)

theorem lookup_putToggles (settings : Settings) (toggle : Toggle) :
    ∀ (toggles : List Toggle) (before : List (Text × Json)),
      (settings.putToggles toggles before).lookup toggle.name.toList
        = if toggle ∈ toggles then some (.bool (settings.value toggle))
          else before.lookup toggle.name.toList := by
  intro toggles
  induction toggles with
  | nil => intro before; rfl
  | cons next rest ih =>
      intro before
      have hrest := ih (putMember next.name.toList (.bool (settings.value next)) before)
      rw [putToggles, List.foldl_cons, ← putToggles, hrest, lookup_putMember]
      by_cases hmem : toggle ∈ rest
      · rw [if_pos hmem, if_pos (List.mem_cons_of_mem next hmem)]
      · rw [if_neg hmem]
        by_cases hnext : toggle = next
        · rw [if_pos (by rw [hnext]), if_pos (by rw [hnext]; exact List.mem_cons_self), hnext]
        · have hname : toggle.name.toList ≠ next.name.toList := fun hsame =>
            hnext (Toggle.name_injective (String.toList_inj.mp hsame))
          rw [if_neg hname, if_neg (by simp [hnext, hmem])]

/-- **THE TEXT OF SETTINGS** is that of an object with their toggles as its members. -/
theorem parse_text (settings : Settings) :
    Json.parse settings.text = .ok (.object (settings.putToggles Toggle.all [])) := by
  obtain ⟨room, hroom⟩ : ∃ room, maxDepth = room + 1 := ⟨979, rfl⟩
  obtain ⟨fuel, hfuel⟩ : ∃ fuel,
      2 * settings.text.length + 2 = Toggle.all.length + fuel + 1 + 1 := by
    refine ⟨2 * (settings.rowsText Toggle.all).length + 4, ?_⟩
    rw [text_eq, List.length_cons, List.length_cons, List.length_append]
    show _ = 4 + _ + 1 + 1
    simp only [List.length_cons, List.length_nil]
    omega
  have hmembers := settings.members_rowsText room fuel Toggle.all [] (List.cons_ne_nil _ _)
  obtain ⟨rows, hrows⟩ : ∃ rows, skipSpace (settings.rowsText Toggle.all ++ ['\n', '}'])
      = '"' :: rows := by
    rw [Toggle.all, rowsText_cons_cons, skipSpace_memberText]
    exact ⟨_, rfl⟩
  rw [hrows] at hmembers
  have hvalue : Json.value (Toggle.all.length + fuel + 1 + 1) (room + 1) (skipSpace settings.text)
      = .ok (.object (settings.putToggles Toggle.all []), []) :=
    value_object hrows hmembers
  rw [Json.parse, hfuel, hroom, hvalue]
  rfl

theorem overlays_putToggles (settings : Settings) :
    Overlays (settings.putToggles Toggle.all []) settings := by
  intro toggle
  rw [lookup_putToggles, if_pos (Toggle.mem_all toggle)]
  rfl

/-- **THE BYTES OF SETTINGS** give them back. -/
theorem ofBytes_text (settings : Settings) :
    ofBytes (Text.toUtf8 settings.text) = .ok settings := by
  rw [ofBytes_of_parse (Text.ofUtf8?_toUtf8 _) settings.parse_text,
    ofJson_of_overlays settings.overlays_putToggles]

/-! ## Saving -/

/-- The directory that the settings file is in, by the names of its path alone. -/
def home (fs : Files) (path : Text) : Place :=
  (Path.lexical (fs.startOf (Path.ofText path)) (Path.ofText path).names).dropLast

/-- The tree after the directory of the settings file has been made, if nothing was there. -/
def MakesWay (fs : Files) (path : Text) (middle : Files) : Prop :=
  if fs.isPresent (Path.toPlace (home fs path)) = true then middle = fs
  else Files.Change.makeWay (home fs path).reverse fs = (.ok (), middle)

theorem isPiece_home (hfs : fs.WellFormed) (hpath : Text.hasNul path = false) :
    ∀ name ∈ home fs path, Path.IsPiece name := by
  intro name hname
  have hplace := Files.forall_mem_lexical (hfs.unlinked_startOf (Path.ofText path)).names
    (fun piece hpiece => (Path.isPiece_ofText hpath piece hpiece).isName) name
    (List.mem_of_mem_dropLast hname)
  exact ⟨hplace.slashless, hplace.nulless⟩

theorem MakesWay.wellFormed (h : MakesWay fs path middle) (hfs : fs.WellFormed)
    (hpath : Text.hasNul path = false) : middle.WellFormed := by
  rw [MakesWay] at h
  split at h
  · rwa [h]
  · have hkept := Files.Change.keeps_makeWay (home fs path).reverse
      (fun name hname => isPiece_home hfs hpath name (List.mem_reverse.mp hname)) fs hfs
    rwa [h] at hkept

theorem MakesWay.home_eq (h : MakesWay fs path middle) : home middle path = home fs path := by
  have hhere : middle.here = fs.here := by
    rw [MakesWay] at h
    split at h
    · rw [h]
    · have hhere := Files.Change.here_of_makeWay (home fs path).reverse fs
      rwa [h] at hhere
  rw [home, home, Files.startOf, Files.startOf, hhere]

/-- Something is there after way has been made, be it new or not. -/
theorem MakesWay.isPresent (h : MakesWay fs path middle) :
    middle.isPresent (Path.toPlace (home fs path)) = true := by
  rw [MakesWay] at h
  split at h
  · rename_i hpresent
    rwa [h]
  · rename_i habsent
    -- the top is always there, so the way has a last name
    cases hhome : (home fs path).reverse with
    | nil =>
        rw [List.reverse_eq_nil_iff.mp hhome] at habsent
        exact absurd rfl habsent
    | cons name above =>
        rw [hhome] at h
        rw [← List.reverse_reverse (home fs path), hhome]
        exact Files.isPresent_of_isDirectory (Files.Change.isDirectory_of_makeWay h)

theorem run_apply_iff {step : Files → Except FileFault Files} :
    Files.Change.apply step fs = (.ok (), fs') ↔ step fs = .ok fs' := by
  have hget : (get : Files.Change Files) fs = (.ok fs, fs) := rfl
  rw [Files.Change.apply, run_bind_of_ok hget]
  cases step fs with
  | error fault => exact ⟨nofun, nofun⟩
  | ok found =>
      constructor
      · intro h
        exact congrArg Except.ok (congrArg Prod.snd h)
      · intro h
        rw [Except.ok.inj h]
        rfl

/-- **SAVING** makes way for the file and writes it. -/
theorem save_eq_ok_iff : save path settings stamp fs = (.ok (), fs') ↔
    ∃ middle, MakesWay fs path middle
      ∧ middle.write (Path.ofText path) (Text.toUtf8 settings.text) stamp = .ok fs' := by
  have hget : (get : Files.Change Files) fs = (.ok fs, fs) := rfl
  rw [save, run_bind_of_ok hget, run_bind_of_ok hget]
  unfold MakesWay
  change (if (!fs.isPresent (Path.toPlace (home fs path))) = true
    then Files.Change.makeWay (home fs path).reverse >>= _ else _) fs = _ ↔ _
  cases fs.isPresent (Path.toPlace (home fs path)) with
  | true =>
      constructor
      · intro h
        exact ⟨fs, rfl, run_apply_iff.mp h⟩
      · rintro ⟨middle, rfl, h⟩
        exact run_apply_iff.mpr h
  | false =>
      constructor
      · intro h
        obtain ⟨_, middle, hway, h⟩ := exists_of_run_bind_ok h
        exact ⟨middle, hway, run_apply_iff.mp h⟩
      · rintro ⟨middle, hway, h⟩
        have hmade : Files.Change.makeWay (home fs path).reverse fs = (.ok (), middle) := hway
        rw [if_pos (by rfl), run_bind_of_ok hmade]
        exact run_apply_iff.mpr h

/-- **SETTINGS ARE STORED** by a path: it leads to a file that holds them and nothing else, and
    the directory of that file is there. -/
structure Stored (fs : Files) (path : Text) (settings : Settings) : Prop where
  files : fs.WellFormed
  home : fs.isPresent (Path.toPlace (home fs path)) = true
  file : ∃ place stamp, fs.locate .write (Path.ofText path)
    = .ok ⟨place, some (.file (Text.toUtf8 settings.text) stamp)⟩

/-- **WHAT IS SAVED IS STORED**, whatever the file held before. -/
theorem stored_of_save (hfs : fs.WellFormed) (hpath : Text.hasNul path = false)
    (h : save path settings stamp fs = (.ok (), fs')) : Stored fs' path settings := by
  obtain ⟨middle, hway, hwrite⟩ := save_eq_ok_iff.mp h
  have hmiddle := hway.wellFormed hfs hpath
  have hwritten := hmiddle.write (Path.isPiece_ofText hpath) hwrite
  obtain ⟨place, hvacant, rfl, hfound⟩ := Files.locate_of_write hmiddle hwrite
  refine ⟨hwritten, ?_, place, stamp, hfound⟩
  have hhome : home (middle.put place (.file (Text.toUtf8 settings.text) stamp)) path
      = home fs path := hway.home_eq
  rw [hhome]
  exact Files.isPresent_put hvacant (fun _ => nofun) hway.isPresent

/-- **WHETHER SAVING SUCCEEDS** has nothing to do with what is saved. -/
theorem save_other (h : save path settings stamp fs = (.ok (), fs')) (settings' : Settings)
    (stamp' : Stamp) : ∃ fs'', save path settings' stamp' fs = (.ok (), fs'') := by
  obtain ⟨middle, hway, hwrite⟩ := save_eq_ok_iff.mp h
  obtain ⟨spot, hfound, hspot, -⟩ := Files.write_eq_ok hwrite
  exact ⟨_, save_eq_ok_iff.mpr ⟨middle, hway, Files.write_of_locate hfound hspot _ stamp'⟩⟩

namespace Stored

theorem read (h : Stored fs path settings) :
    fs.read (Path.ofText path) = .ok (Text.toUtf8 settings.text) := by
  obtain ⟨place, stamp, hfound⟩ := h.file
  exact Files.read_of_locate hfound

/-- **STORED SETTINGS ARE LOADED.** -/
theorem load (h : Stored fs path settings) : Settings.load fs path = .ok settings := by
  rw [load_of_read h.read, ofBytes_text]

/-- **OTHER SETTINGS CAN BE SAVED** where settings are stored. -/
theorem save (h : Stored fs path settings) (settings' : Settings) (stamp' : Stamp) :
    ∃ fs', Settings.save path settings' stamp' fs = (.ok (), fs') := by
  obtain ⟨place, stamp, hfound⟩ := h.file
  have hway : MakesWay fs path fs := by
    rw [MakesWay, if_pos h.home]
  exact ⟨_, save_eq_ok_iff.mpr ⟨fs, hway, Files.write_of_locate hfound (by simp) _ stamp'⟩⟩

end Stored

end NoteDigest.Settings
