import NoteDigest.Proofs.Files.Changing

/-! # Clearing — resolving without a circle takes every link out

    When no link turns in a circle, the place that a path is resolved to has no link on the
    way to it, be anything there or not (`unlinked_of_placeOf`).  Then it stands for itself
    (`Unlinked.placeOf`), and the system finds no circle either (`Unlinked.stat_ne`).

    Behind a circle the rest of a path stays as it is written: links in it stay links, and a
    NUL that `..` takes back is not noticed.  Even so the place has the names of entries, and
    can be written as text (`isName_of_placeOf`). -/

namespace NoteDigest.Files

open NoteDigest.Path

variable {fs : Files} {place mid : Place} {name : Name} {names rest : List Name} {path : Path}
  {trail : Trail} {enter : Place → List Name → Trail → Resolution}

theorem resolve_eq_ok_iff :
    fs.resolve path = .ok place
      ↔ fs.nestsTooDeep path = false ∧ (fs.resolution path).place = place
        ∧ fs.stat (toPlace place) ≠ .error .linkLoop := by
  rw [resolve]
  cases fs.nestsTooDeep path with
  | true => simp
  | false =>
      simp only [Bool.false_eq_true, if_false, true_and]
      constructor
      · intro h
        split at h
        · cases h
        · rename_i hstat
          obtain rfl := Except.ok.inj h
          exact ⟨rfl, hstat⟩
      · rintro ⟨rfl, hstat⟩
        split
        · rename_i hloop
          exact absurd hloop hstat
        · rfl

/-- A path stands for what comes of it, if there is room for its links, no NUL is noticed, and
    the system finds no circle. -/
theorem placeOf_eq_ok_iff :
    fs.placeOf path = .ok place
      ↔ fs.nestsTooDeep path.beforeNul = false ∧ fs.noticesNul path = false
        ∧ fs.resolve path = .ok place := by
  rw [placeOf]
  cases fs.nestsTooDeep path.beforeNul with
  | true => simp
  | false =>
      cases fs.noticesNul path with
      | true => simp
      | false =>
          cases fs.resolve path with
          | ok found => simp
          | error snag => cases snag <;> simp

/-- The names that lead down to a place are of a kind, and none that is there is a link. -/
structure Unlinked (fs : Files) (P : Name → Prop) (place : Place) : Prop where
  names : ∀ name ∈ place, P name
  links : ∀ above name, above ++ [name] <+: place → fs.linkAt? above name = none

namespace Unlinked

variable {P : Name → Prop}

theorem nil (fs : Files) (P : Name → Prop) : fs.Unlinked P [] where
  names := List.forall_mem_nil _
  links := fun above name h => absurd (List.prefix_nil.mp h) (by simp)

theorem above (h : fs.Unlinked P place) (hmid : mid <+: place) : fs.Unlinked P mid where
  names := fun name hname => h.names name (hmid.subset hname)
  links := fun above name habove => h.links above name (habove.trans hmid)

theorem down (h : fs.Unlinked P place) (hname : P name) (hnone : fs.linkAt? place name = none) :
    fs.Unlinked P (place ++ [name]) where
  names := List.forall_mem_append.mpr ⟨h.names, List.forall_mem_singleton.mpr hname⟩
  links := by
    intro above last hlast
    rcases List.prefix_concat_iff.mp hlast with heq | hlast
    · obtain ⟨rfl, hsame⟩ := List.append_inj' heq rfl
      obtain rfl := (List.cons.inj hsame).1
      exact hnone
    · exact h.links above last hlast

theorem linkStart (h : fs.Unlinked P place) (target : Text) :
    fs.Unlinked P (linkStart place target) := by
  rw [Files.linkStart]
  split
  · exact .nil fs P
  · exact h

/-- The names of such a place are resolved as they are. -/
theorem resolveNames :
    ∀ {names place}, fs.Unlinked IsName (place ++ names) →
      fs.resolveNames enter place names trail = ⟨place ++ names, true, trail⟩ := by
  intro names
  induction names with
  | nil =>
      intro place _
      rw [Files.resolveNames, List.append_nil]
  | cons name rest ih =>
      intro place h
      have hname : IsName name := h.names name (by simp)
      have hnone : fs.linkAt? place name = none := h.links place name (by simp)
      have hsame : place ++ name :: rest = place ++ [name] ++ rest := by simp
      rw [resolveNames_down hname.step hnone, hsame]
      exact ih (hsame ▸ h)

/-- **SUCH A PLACE STANDS FOR ITSELF**, if there is no circle behind it. -/
theorem placeOf (h : fs.Unlinked IsName place) (hstat : fs.stat (toPlace place) ≠ .error .linkLoop) :
    fs.placeOf (toPlace place) = .ok place := by
  have hfound : fs.resolution (toPlace place) = ⟨place, true, []⟩ := by
    show fs.resolveWithin fs.entries.length [] place [] = _
    cases fs.entries.length <;> exact Unlinked.resolveNames h
  have hresolve : fs.resolve (toPlace place) = .ok place := by
    refine resolve_eq_ok_iff.mpr ⟨?_, by rw [hfound], hstat⟩
    rw [nestsTooDeep, hfound]
    rfl
  rw [placeOf_of_nulless fun name hname => (h.names name hname).nulless, hresolve]

/-- Along names without links the system meets no circle. -/
theorem locateWithin_ne {hops : Nat} :
    ∀ {names place}, fs.Unlinked IsName (place ++ names) →
      fs.locateWithin .follow hops place names ≠ .error .linkLoop := by
  intro names
  induction names with
  | nil =>
      intro place _
      rw [locateWithin_nil]
      exact nofun
  | cons name rest ih =>
      intro place h
      have hname : IsName name := h.names name (by simp)
      have hnone : fs.linkAt? place name = none := h.links place name (by simp)
      by_cases hdir : fs.hasDirectory place = true
      · rw [locateWithin_step hdir hname.step]
        split
        · exact nofun
        · split
          · split <;> exact nofun
          · rename_i target hget
            rw [linkAt?_eq_some_iff.mpr ⟨hdir, hget⟩] at hnone
            cases hnone
          · rw [List.append_cons] at h
            exact ih h
      · rw [locateWithin_outside hdir]
        exact nofun

/-- Whatever the system says of such a place, it does not speak of a circle. -/
theorem stat_ne (h : fs.Unlinked IsName place) : fs.stat (toPlace place) ≠ .error .linkLoop := by
  have hlocate : fs.locate .follow (toPlace place) ≠ .error .linkLoop := by
    rw [locate, if_neg (by simp [toPlace])]
    split
    · intro hlong
      cases hlong
    · exact Unlinked.locateWithin_ne h
  intro hstat
  rw [stat] at hstat
  split at hstat
  · cases hstat
  · cases hstat
  · rename_i fault hfound
    rw [Except.error.inj hstat] at hfound
    exact hlocate hfound

end Unlinked

/-! ## Clear ways -/

/-- A link that is met while its own way is being worked out turns in a circle. -/
theorem resolveNames_open {target : Text} (hstep : isStep name = true)
    (hsome : fs.linkAt? place name = some target)
    (hopen : trail.lookup (place ++ [name]) = some none) :
    fs.resolveNames enter place (name :: rest) trail
      = ⟨appendRest (place ++ [name]) rest, false, trail⟩ := by
  rw [resolveNames, not_isIdle_of_isStep hstep, not_parentName_of_isStep hstep, hsome]
  simp [hopen]

/-- The way behind a link not met before is worked out, whatever comes of it. -/
theorem resolveNames_unmet {target : Text} {way : Resolution} (hstep : isStep name = true)
    (hsome : fs.linkAt? place name = some target)
    (hnew : trail.lookup (place ++ [name]) = none)
    (hway : enter (linkStart place target) (ofText target).names ((place ++ [name], none) :: trail)
      = way) :
    fs.resolveNames enter place (name :: rest) trail
      = if way.clear then
          fs.resolveNames enter way.place rest ((place ++ [name], some way.place) :: way.trail)
        else ⟨appendRest way.place rest, false, way.trail⟩ := by
  rw [resolveNames, not_isIdle_of_isStep hstep, not_parentName_of_isStep hstep, hsome]
  simp [hnew, hway]

variable {P : Name → Prop}

/-- The links that a trail knows lead to places without links. -/
def Cleared (fs : Files) (P : Name → Prop) (trail : Trail) : Prop :=
  ∀ link known, trail.lookup link = some (some known) → fs.Unlinked P known

theorem Cleared.nil (fs : Files) (P : Name → Prop) : fs.Cleared P [] :=
  fun _ _ hnone => nomatch hnone

theorem Cleared.cons (h : fs.Cleared P trail) {known : Option Place}
    (hknown : ∀ place, known = some place → fs.Unlinked P place) (link : Place) :
    fs.Cleared P ((link, known) :: trail) := by
  intro other place hlookup
  rw [List.lookup_cons] at hlookup
  split at hlookup
  · exact hknown place (Option.some.inj hlookup)
  · exact h other place hlookup

/-- A resolver that gives places with names of a kind, out of such names, and without links
    unless it meets a circle. -/
def Clears (fs : Files) (P : Name → Prop) (resolver : Place → List Name → Trail → Resolution) :
    Prop :=
  ∀ {place names trail}, fs.Unlinked P place → (∀ name ∈ names, isStep name = true → P name) →
    fs.Cleared P trail →
    fs.Cleared P (resolver place names trail).trail
      ∧ (∀ name ∈ (resolver place names trail).place, P name)
      ∧ ((resolver place names trail).clear = true →
        fs.Unlinked P (resolver place names trail).place)

/-- Names taken one after the other, with no directory consulted, leave names of their kind. -/
theorem forall_mem_lexical :
    ∀ {rest place}, (∀ name ∈ place, P name) → (∀ name ∈ rest, isStep name = true → P name) →
      ∀ name ∈ lexical place rest, P name := by
  intro rest
  induction rest with
  | nil => exact fun hplace _ => hplace
  | cons name rest ih =>
      intro place hplace hnames
      obtain ⟨hname, hrest⟩ := List.forall_mem_cons.mp hnames
      rcases name_cases name with hidle | rfl | hstep
      · rw [lexical, if_pos hidle]
        exact ih hplace hrest
      · show ∀ name ∈ lexical place.dropLast rest, P name
        exact ih (fun name hname => hplace name (List.mem_of_mem_dropLast hname)) hrest
      · rw [lexical, not_isIdle_of_isStep hstep, not_parentName_of_isStep hstep]
        refine ih (List.forall_mem_append.mpr ⟨hplace, ?_⟩) hrest
        exact List.forall_mem_singleton.mpr (hname hstep)

theorem forall_mem_appendRest (hplace : ∀ name ∈ place, P name)
    (hrest : ∀ name ∈ rest, isStep name = true → P name) :
    ∀ name ∈ appendRest place rest, P name := by
  unfold appendRest
  split
  · exact forall_mem_lexical (List.forall_mem_nil _) hrest
  · exact forall_mem_lexical hplace hrest

/-- **ONE NAME FURTHER**: names are cleared of links, if the ways behind links are.  The
    targets of links are written in names of every kind that those of entries are of. -/
theorem clears_resolveNames (hfs : fs.WellFormed) (hP : ∀ name, IsName name → P name)
    (henter : fs.Clears P enter) : fs.Clears P (fs.resolveNames enter) := by
  intro place names
  induction names generalizing place with
  | nil => exact fun hplace _ htrail => ⟨htrail, hplace.names, fun _ => hplace⟩
  | cons name rest ih =>
      intro trail hplace hnames htrail
      obtain ⟨hname, hrest⟩ := List.forall_mem_cons.mp hnames
      rcases name_cases name with hidle | rfl | hstep
      · rw [resolveNames_idle hidle]
        exact ih hplace hrest htrail
      · rw [resolveNames_up]
        exact ih (hplace.above (List.dropLast_prefix _)) hrest htrail
      · cases hlink : fs.linkAt? place name with
        | none =>
            rw [resolveNames_down hstep hlink]
            exact ih (hplace.down (hname hstep) hlink) hrest htrail
        | some target =>
            cases hmet : trail.lookup (place ++ [name]) with
            | some known =>
                cases known with
                | some known =>
                    rw [resolveNames_known hstep hlink hmet]
                    exact ih (htrail _ known hmet) hrest htrail
                | none =>
                    -- the link is open: a circle
                    have hchild : ∀ x ∈ place ++ [name], P x :=
                      List.forall_mem_append.mpr
                        ⟨hplace.names, List.forall_mem_singleton.mpr (hname hstep)⟩
                    rw [resolveNames_open hstep hlink hmet]
                    exact ⟨htrail, forall_mem_appendRest hchild hrest,
                      fun hclear => absurd hclear Bool.false_ne_true⟩
            | none =>
                -- the link is new: its way is cleared first, and the rest if it was clear
                have htarget : ∀ piece ∈ (ofText target).names, isStep piece = true → P piece := by
                  intro piece hmem hstep
                  have hpiece := isPiece_target hfs (linkAt?_eq_some_iff.mp hlink).2 piece hmem
                  exact hP piece (hpiece.isName hstep)
                have hentered : fs.Cleared P ((place ++ [name], none) :: trail) :=
                  htrail.cons (by rintro _ ⟨⟩) _
                obtain ⟨hinside, hnamed, hway⟩ :=
                  henter (hplace.linkStart target) htarget hentered
                generalize hfound : enter (Files.linkStart place target) (ofText target).names
                  ((place ++ [name], none) :: trail) = way at hinside hnamed hway
                rw [resolveNames_unmet hstep hlink hmet hfound]
                split
                · rename_i hclear
                  refine ih (hway hclear) hrest (hinside.cons ?_ _)
                  rintro _ ⟨⟩
                  exact hway hclear
                · exact ⟨hinside, forall_mem_appendRest hnamed hrest,
                    fun hclear => absurd hclear Bool.false_ne_true⟩

/-- **ALL NAMES**, by induction on the depth. -/
theorem clears_resolveWithin (hfs : fs.WellFormed) (hP : ∀ name, IsName name → P name)
    (depth : Nat) : fs.Clears P (fs.resolveWithin depth) := by
  induction depth with
  | zero =>
      refine clears_resolveNames hfs hP fun hplace hnames htrail => ?_
      exact ⟨htrail, forall_mem_lexical hplace.names hnames,
        fun hclear => absurd hclear Bool.false_ne_true⟩
  | succ depth ih => exact clears_resolveNames hfs hP ih

/-- No link turns in a circle on the way to the place that a path is resolved to. -/
def IsClear (fs : Files) (path : Path) : Prop :=
  (fs.resolution path).clear = true

/-- Where the first of some names meet no circle behind them, they meet none by themselves. -/
theorem clear_of_append :
    ∀ {names place trail}, (fs.resolveNames enter place (names ++ rest) trail).clear = true →
      (fs.resolveNames enter place names trail).clear = true := by
  intro names
  induction names with
  | nil => exact fun _ => rfl
  | cons name names ih =>
      intro place trail h
      rw [List.cons_append] at h
      rcases name_cases name with hidle | rfl | hstep
      · rw [resolveNames_idle hidle] at h ⊢
        exact ih h
      · rw [resolveNames_up] at h ⊢
        exact ih h
      · cases hlink : fs.linkAt? place name with
        | none =>
            rw [resolveNames_down hstep hlink] at h ⊢
            exact ih h
        | some target =>
            cases hmet : trail.lookup (place ++ [name]) with
            | some known =>
                cases known with
                | some known =>
                    rw [resolveNames_known hstep hlink hmet] at h ⊢
                    exact ih h
                | none =>
                    -- a circle among the names is one for all that follows them
                    rw [resolveNames_open hstep hlink hmet] at h
                    exact absurd h Bool.false_ne_true
            | none =>
                rw [resolveNames_unmet hstep hlink hmet rfl] at h ⊢
                split at h
                · rename_i hclear
                  rw [if_pos hclear]
                  exact ih h
                · exact absurd h Bool.false_ne_true

/-- A clear path is clear up to a NUL in it. -/
theorem IsClear.beforeNul (h : fs.IsClear path) : fs.IsClear path.beforeNul := by
  have hnames : path.names = path.beforeNul.names ++ path.names.dropWhile (!Text.hasNul ·) :=
    List.takeWhile_append_dropWhile.symm
  rw [IsClear, resolution, hnames] at h
  rw [IsClear, resolution]
  -- both paths are resolved at one depth, which tells how links are entered
  cases hdepth : fs.entries.length with
  | zero =>
      rw [hdepth] at h
      exact clear_of_append h
  | succ depth =>
      rw [hdepth] at h
      exact clear_of_append h

/-- **A NUL** in a clear path is noticed, if there is room for the links before it. -/
theorem placeOf_of_hasNul (h : ∃ name ∈ path.names, Text.hasNul name = true)
    (hclear : fs.IsClear path) (hroom : ¬ fs.nestsTooDeep path.beforeNul = true) :
    fs.placeOf path = .error .nulInPath := by
  have hnoticed : fs.noticesNul path = true := by
    rw [noticesNul, List.any_eq_true.mpr h, show (fs.resolution path.beforeNul).clear = true from
      hclear.beforeNul]
    rfl
  rw [placeOf, if_neg hroom, if_pos hnoticed]

/-- What comes of a clear path from the top is a place without links. -/
theorem unlinked_resolution (hfs : fs.WellFormed) (hnames : ∀ name ∈ names, IsPiece name)
    (hclear : fs.IsClear (toPlace names)) :
    fs.Unlinked IsName (fs.resolution (toPlace names)).place :=
  (clears_resolveWithin hfs (fun _ => id) fs.entries.length (.nil fs _)
    (fun name hname => (hnames name hname).isName) (.nil fs _)).2.2 hclear

/-- **A CLEAR PATH** from the top stands for a place without links, which stands for itself. -/
theorem unlinked_of_placeOf (hfs : fs.WellFormed) (hnames : ∀ name ∈ names, '/' ∉ name)
    (hclear : fs.IsClear (toPlace names)) (h : fs.placeOf (toPlace names) = .ok place) :
    fs.Unlinked IsName place ∧ fs.placeOf (toPlace place) = .ok place := by
  obtain ⟨hroom, -, hresolve⟩ := placeOf_eq_ok_iff.mp h
  have hpieces : ∀ name ∈ names, IsPiece name := by
    -- no circle would have kept a NUL from being noticed
    intro name hname
    refine ⟨hnames name hname, ?_⟩
    rw [← Bool.not_eq_true]
    intro hnul
    rw [placeOf_of_hasNul ⟨name, hname, hnul⟩ hclear (Bool.not_eq_true _ ▸ hroom)] at h
    cases h
  obtain ⟨-, rfl, hstat⟩ := resolve_eq_ok_iff.mp hresolve
  have hunlinked := unlinked_resolution hfs hpieces hclear
  exact ⟨hunlinked, hunlinked.placeOf hstat⟩

/-- **EVERY CLEAR PATH** from the top stands for a place, if its names are pieces of a text and
    there is room for its links. -/
theorem exists_placeOf_of_clear (hfs : fs.WellFormed) (hnames : ∀ name ∈ names, IsPiece name)
    (hclear : fs.IsClear (toPlace names)) (hroom : fs.nestsTooDeep (toPlace names) = false) :
    ∃ place, fs.placeOf (toPlace names) = .ok place := by
  have hresolve := resolve_eq_ok_iff.mpr
    ⟨hroom, rfl, (unlinked_resolution hfs hnames hclear).stat_ne⟩
  refine ⟨(fs.resolution (toPlace names)).place, ?_⟩
  rw [placeOf_of_nulless fun name hname => (hnames name hname).2, hresolve]

/-- Paths start from a place without links. -/
theorem WellFormed.unlinked_startOf (hfs : fs.WellFormed) (path : Path) :
    fs.Unlinked IsName (fs.startOf path) where
  names := by
    rw [startOf]
    split
    · exact List.forall_mem_nil _
    · exact hfs.isName (by rw [hasDirectory_iff.mp hfs.directory]; rfl)
  links := fun above name habove => (hfs.plain_startOf path above name habove).2.2

/-- What comes of a path is made of names of a kind, if the names of the path are. -/
theorem forall_mem_resolution (hfs : fs.WellFormed) (hP : ∀ name, IsName name → P name)
    (hnames : ∀ name ∈ path.names, isStep name = true → P name) :
    ∀ name ∈ (fs.resolution path).place, P name := by
  have hstart := hfs.unlinked_startOf path
  exact (clears_resolveWithin hfs hP fs.entries.length
    ⟨fun name hname => hP name (hstart.names name hname), hstart.links⟩ hnames (.nil fs P)).2.1

/-- **EVERY PATH** stands for a place with the names of entries, if its own names are pieces of
    a text. -/
theorem isName_of_placeOf (hfs : fs.WellFormed) (hnames : ∀ name ∈ path.names, '/' ∉ name)
    (h : fs.placeOf path = .ok place) : ∀ name ∈ place, IsName name := by
  obtain ⟨-, hnul, hresolve⟩ := placeOf_eq_ok_iff.mp h
  obtain ⟨-, rfl, -⟩ := resolve_eq_ok_iff.mp hresolve
  rw [noticesNul, Bool.and_eq_false_iff, Bool.or_eq_false_iff] at hnul
  rcases hnul with hnone | ⟨-, hleft⟩
  · refine forall_mem_resolution hfs (fun _ => id) fun name hname hstep => ?_
    exact ⟨hstep, hnames name hname, by simpa using List.any_eq_false.mp hnone name hname⟩
  · -- a NUL in the path is behind a circle, and has been taken back
    have hkind : ∀ name ∈ (fs.resolution path).place, isStep name = true ∧ '/' ∉ name :=
      forall_mem_resolution hfs (fun _ hname => ⟨hname.step, hname.slashless⟩)
        fun name hname hstep => ⟨hstep, hnames name hname⟩
    intro name hname
    obtain ⟨hstep, hslashless⟩ := hkind name hname
    exact ⟨hstep, hslashless, by simpa using List.any_eq_false.mp hleft name hname⟩

end NoteDigest.Files
