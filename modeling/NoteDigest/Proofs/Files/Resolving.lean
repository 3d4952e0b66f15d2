import Mathlib.Data.Finset.Dedup
import Mathlib.Data.Finset.Card
import NoteDigest.Proofs.Files.Locating

/-! # Resolving — taking links out agrees with following them

    `Files.resolve` works every link out once, remembers it on its trail and may go wrong
    in four ways: a link is met while it is open, the depth runs out, a remembered place is
    not the right one, or there is no room for all links that are open.  None of them happens
    on a walk that the system can take:

    * an open link has no fewer links behind it than there are ahead (`Sound`), so it
      cannot be the next one;
    * the links on the trail are distinct entries, so the depth lasts
      (`mem_links_of_depth`);
    * a link leads to one place (`Crosses.unique`);
    * no more links are opened on the way than the walk passes (`Opens`).

    So `resolve` gives the goal of a walk (`resolve_of_leads`). -/

namespace NoteDigest.Files

open NoteDigest.Path

variable {fs : Files} {place goal mid link : Place} {names rest : List Name} {name : Name}
  {n m : Nat} {target : Text} {trail trail' : Trail}

/-! ## Links -/

/-- A link stands at a place, and the names of its target lead to a goal. -/
def Crosses (fs : Files) (link : Place) (n : Nat) (goal : Place) : Prop :=
  ∃ above name target, link = above ++ [name] ∧ fs.linkAt? above name = some target
    ∧ fs.Leads (linkStart above target) (ofText target).names n goal

theorem Crosses.unique (h : fs.Crosses link n goal) (h' : fs.Crosses link m mid) :
    n = m ∧ goal = mid := by
  obtain ⟨above, name, target, rfl, hsome, hleads⟩ := h
  obtain ⟨above', name', target', hlink, hsome', hleads'⟩ := h'
  obtain ⟨rfl, hname⟩ := List.append_inj' hlink rfl
  obtain rfl := (List.cons.inj hname).1
  obtain rfl := Option.some.inj (hsome.symm.trans hsome')
  exact hleads.unique hleads'

/-- The places of entries. -/
def places (fs : Files) : Finset Place :=
  (fs.entries.map Prod.fst).toFinset

theorem Crosses.mem_places (h : fs.Crosses link n goal) : link ∈ fs.places := by
  obtain ⟨above, name, target, rfl, hsome, -⟩ := h
  have hget := (linkAt?_eq_some_iff.mp hsome).2
  have hentry := mem_entries_of_get? (by simp) hget
  exact List.mem_toFinset.mpr (List.mem_map_of_mem hentry)

/-! ## Trails -/

/-- The links on a trail. -/
def links (trail : Trail) : Finset Place :=
  (trail.map Prod.fst).toFinset

theorem mem_links : link ∈ links trail ↔ (trail.lookup link).isSome = true := by
  rw [links, List.mem_toFinset, List.lookup_isSome_iff]
  simp

/-- **INVARIANT**: what a trail says of its links is true.  A known link leads to the known
    place; an open one has at least as many links behind it as are still ahead. -/
def Sound (fs : Files) (trail : Trail) (ahead : Nat) : Prop :=
  ∀ link known, trail.lookup link = some known →
    ∃ m goal, fs.Crosses link m goal ∧ known.elim (ahead ≤ m) (· = goal)

theorem Sound.mono (h : Sound fs trail n) (hmn : m ≤ n) : Sound fs trail m := by
  intro link known hknown
  obtain ⟨k, goal, hcross, htrue⟩ := h link known hknown
  refine ⟨k, goal, hcross, ?_⟩
  cases known with
  | none => exact Nat.le_trans hmn htrue
  | some place => exact htrue

/-- What resolving does to a trail: no link is forgotten, and none is left open. -/
structure Extends (trail trail' : Trail) : Prop where
  kept : links trail ⊆ links trail'
  closed : ∀ link, trail'.lookup link = some none → trail.lookup link = some none

theorem Extends.refl (trail : Trail) : Extends trail trail :=
  ⟨fun _ => id, fun _ => id⟩

theorem Extends.trans {trail'' : Trail} (h : Extends trail trail')
    (h' : Extends trail' trail'') : Extends trail trail'' :=
  ⟨fun _ hlink => h'.kept (h.kept hlink), fun link hopen => h.closed link (h'.closed link hopen)⟩

/-- The open links of a longer trail are those that were open before. -/
theorem Sound.extend (h : Sound fs trail n) (hext : Extends trail trail')
    (h' : Sound fs trail' m) : Sound fs trail' n := by
  intro link known hknown
  cases known with
  | none => exact h link none (hext.closed link hknown)
  | some place => exact h' link (some place) hknown

/-- A link is put on the trail when it is entered. -/
theorem Sound.enter (h : Sound fs trail n) (hcross : fs.Crosses link m goal) (hmn : m ≤ n) :
    Sound fs ((link, none) :: trail) m := by
  intro link' known hknown
  rw [List.lookup_cons] at hknown
  split at hknown
  · rename_i heq
    obtain rfl := eq_of_beq heq
    obtain rfl := Option.some.inj hknown
    exact ⟨m, goal, hcross, Nat.le_refl m⟩
  · exact h.mono hmn link' known hknown

/-- A link is known once its way has been worked out. -/
theorem Sound.close (h : Sound fs trail n) (hcross : fs.Crosses link m goal) :
    Sound fs ((link, some goal) :: trail) n := by
  intro link' known hknown
  rw [List.lookup_cons] at hknown
  split at hknown
  · rename_i heq
    obtain rfl := eq_of_beq heq
    obtain rfl := Option.some.inj hknown
    exact ⟨m, goal, hcross, rfl⟩
  · exact h link' known hknown

/-- Entering a link and leaving it again leaves nothing open. -/
theorem Extends.close (h : Extends ((link, none) :: trail) trail') :
    Extends trail ((link, some goal) :: trail') := by
  constructor
  · intro link' hlink'
    have hentered : link' ∈ links ((link, none) :: trail) := by
      simp [links] at hlink' ⊢
      exact .inr hlink'
    have hleft := h.kept hentered
    simp [links] at hleft ⊢
    exact .inr hleft
  · intro link' hopen
    rw [List.lookup_cons] at hopen
    split at hopen
    · cases hopen
    · rename_i hne
      have hopen' := h.closed link' hopen
      rw [List.lookup_cons, hne] at hopen'
      exact hopen'

/-- **INVARIANT**: as many links are open on the longer trail as before, and in between there
    were never more of them than those and the ones ahead. -/
structure Opens (trail trail' : Trail) (ahead : Nat) : Prop where
  count : openCount trail' = openCount trail
  most : deepest trail' ≤ max (deepest trail) (openCount trail + ahead)

theorem Opens.refl (trail : Trail) (n : Nat) : Opens trail trail n :=
  ⟨rfl, Nat.le_max_left _ _⟩

theorem Opens.trans {trail'' : Trail} (h : Opens trail trail' n) (h' : Opens trail' trail'' m)
    (hmn : m ≤ n) : Opens trail trail'' n := by
  obtain ⟨hcount, hmost⟩ := h
  obtain ⟨hcount', hmost'⟩ := h'
  exact ⟨hcount'.trans hcount, by omega⟩

/-- One link is open while the way behind it is worked out. -/
theorem Opens.close (h : Opens ((link, none) :: trail) trail' m) (hmn : m + 1 ≤ n) :
    Opens trail ((link, some goal) :: trail') n := by
  obtain ⟨hcount, hmost⟩ := h
  simp only [openCount, deepest] at hcount hmost
  constructor
  · rw [openCount, hcount, Nat.add_sub_cancel]
  · rw [deepest, openCount]
    omega

/-- **THE DEPTH LASTS**: when it is used up, every entry is on the trail. -/
theorem mem_links_of_depth (h : Sound fs trail n)
    (hdepth : fs.entries.length ≤ (links trail).card) (hlink : link ∈ fs.places) :
    link ∈ links trail := by
  have hsub : links trail ⊆ fs.places := by
    intro link' hlink'
    obtain ⟨known, hknown⟩ := Option.isSome_iff_exists.mp (mem_links.mp hlink')
    obtain ⟨m, goal, hcross, -⟩ := h link' known hknown
    exact hcross.mem_places
  have hcard : fs.places.card ≤ fs.entries.length := by
    have := List.toFinset_card_le (fs.entries.map Prod.fst)
    rwa [List.length_map] at this
  rw [Finset.eq_of_subset_of_card_le hsub (Nat.le_trans hcard hdepth)]
  exact hlink

/-! ## One name -/

variable {enter : Place → List Name → Trail → Resolution}

theorem resolveNames_idle (hidle : isIdle name = true) :
    fs.resolveNames enter place (name :: rest) trail
      = fs.resolveNames enter place rest trail := by
  rw [resolveNames, if_pos hidle]

theorem resolveNames_up :
    fs.resolveNames enter place (parentName :: rest) trail
      = fs.resolveNames enter place.dropLast rest trail := by
  rw [resolveNames]
  rfl

theorem resolveNames_down (hstep : isStep name = true) (hnone : fs.linkAt? place name = none) :
    fs.resolveNames enter place (name :: rest) trail
      = fs.resolveNames enter (place ++ [name]) rest trail := by
  rw [resolveNames, not_isIdle_of_isStep hstep, not_parentName_of_isStep hstep, hnone]
  rfl

theorem resolveNames_known (hstep : isStep name = true)
    (hsome : fs.linkAt? place name = some target)
    (hknown : trail.lookup (place ++ [name]) = some (some mid)) :
    fs.resolveNames enter place (name :: rest) trail
      = fs.resolveNames enter mid rest trail := by
  rw [resolveNames, not_isIdle_of_isStep hstep, not_parentName_of_isStep hstep, hsome]
  simp [hknown]

theorem resolveNames_enter (hstep : isStep name = true)
    (hsome : fs.linkAt? place name = some target)
    (hnew : trail.lookup (place ++ [name]) = none)
    (hway : enter (linkStart place target) (ofText target).names ((place ++ [name], none) :: trail)
      = ⟨mid, true, trail'⟩) :
    fs.resolveNames enter place (name :: rest) trail
      = fs.resolveNames enter mid rest ((place ++ [name], some mid) :: trail') := by
  rw [resolveNames, not_isIdle_of_isStep hstep, not_parentName_of_isStep hstep, hsome]
  simp [hnew, hway]

/-! ## The simulation -/

/-- A resolver takes a walk to its goal, and leaves the trail sound and longer. -/
def Resolves (fs : Files) (resolver : Place → List Name → Trail → Resolution) (place : Place)
    (names : List Name) (trail : Trail) (ahead : Nat) (goal : Place) : Prop :=
  ∃ trail', resolver place names trail = ⟨goal, true, trail'⟩ ∧ Extends trail trail'
    ∧ Sound fs trail' ahead ∧ Opens trail trail' ahead

/-- **ONE NAME FURTHER**: walks are resolved, if the ways behind links not met before are. -/
theorem resolves_resolveNames {depth : Nat}
    (henter : ∀ {link place names m mid trail n}, fs.Crosses link m mid →
      fs.Leads place names m mid → Sound fs trail n → m ≤ n → link ∉ links trail →
      fs.entries.length ≤ depth + (links trail).card →
      fs.Resolves enter place names ((link, none) :: trail) m mid) :
    ∀ {names place n goal trail}, fs.Leads place names n goal → Sound fs trail n →
      fs.entries.length ≤ depth + (links trail).card →
      fs.Resolves (fs.resolveNames enter) place names trail n goal := by
  intro names
  induction names with
  | nil =>
      intro place n goal trail hleads hsound _
      cases hleads with
      | done => exact ⟨trail, rfl, .refl trail, hsound, .refl trail _⟩
  | cons name rest ih =>
      intro place n goal trail hleads hsound hdepth
      rw [Resolves]
      cases hleads with
      | idle hdir hidle hrest =>
          rw [resolveNames_idle hidle]
          exact ih hrest hsound hdepth
      | up hdir hrest =>
          rw [resolveNames_up]
          exact ih hrest hsound hdepth
      | down hdir hstep hnone hrest =>
          rw [resolveNames_down hstep hnone]
          exact ih hrest hsound hdepth
      | @link _ _ _ _ ahead target hstep hsome hway =>
          obtain ⟨m, mid, k, hinner, hrest, rfl⟩ := hway.split rfl
          have hcross : fs.Crosses (place ++ [name]) m mid :=
            ⟨place, name, target, rfl, hsome, hinner⟩
          cases hmet : trail.lookup (place ++ [name]) with
          | none =>
              -- the link is new: its way is worked out, and the rest with the link known
              have hnew : place ++ [name] ∉ links trail := by
                rw [mem_links, hmet]
                exact Bool.false_ne_true
              obtain ⟨inside, hfound, hext, hinside, hopens⟩ :=
                henter hcross hinner hsound (by omega) hnew hdepth
              have hext' : Extends trail ((place ++ [name], some mid) :: inside) := hext.close
              have hclosed := hsound.extend hext' (hinside.close hcross)
              obtain ⟨after, hafter, hext'', hsound', hopens'⟩ := ih hrest (hclosed.mono (by omega))
                (Nat.le_trans hdepth
                  (Nat.add_le_add_left (Finset.card_le_card hext'.kept) depth))
              rw [resolveNames_enter hstep hsome hmet hfound]
              exact ⟨after, hafter, hext'.trans hext'', hclosed.extend hext'' hsound',
                (hopens.close (by omega)).trans hopens' (by omega)⟩
          | some known =>
              obtain ⟨m', goal', hcross', htrue⟩ := hsound _ known hmet
              obtain ⟨rfl, rfl⟩ := hcross.unique hcross'
              cases known with
              | none =>
                  -- an open link has more links behind it than are ahead, itself included
                  have hahead : m + k + 1 ≤ m := htrue
                  omega
              | some seen =>
                  obtain rfl : seen = mid := htrue
                  obtain ⟨after, hafter, hext, hsound', hopens⟩ :=
                    ih hrest (hsound.mono (by omega)) hdepth
                  rw [resolveNames_known hstep hsome hmet]
                  exact ⟨after, hafter, hext, hsound.extend hext hsound',
                    (Opens.refl trail _).trans hopens (by omega)⟩

/-- **WALKS ARE RESOLVED** as long as the depth lasts for the entries not met. -/
theorem resolves_resolveWithin :
    ∀ depth {names place n goal trail}, fs.Leads place names n goal → Sound fs trail n →
      fs.entries.length ≤ depth + (links trail).card →
      fs.Resolves (fs.resolveWithin depth) place names trail n goal := by
  intro depth
  induction depth with
  | zero =>
      refine resolves_resolveNames ?_
      intro link _ _ _ _ _ _ hcross _ hsound _ hnew hdepth
      rw [Nat.zero_add] at hdepth
      exact absurd (mem_links_of_depth hsound hdepth hcross.mem_places) hnew
  | succ depth ih =>
      refine resolves_resolveNames ?_
      intro link place names m mid trail n hcross hleads hsound hmn hnew hdepth
      refine ih hleads (hsound.enter hcross hmn) ?_
      have hcard : (links ((link, none) :: trail)).card = (links trail).card + 1 := by
        rw [links, List.map_cons, List.toFinset_cons]
        exact Finset.card_insert_of_notMem hnew
      omega

/-- What comes of a walk is its goal, with no more links open at once than there are on it. -/
theorem resolution_of_leads {path : Path}
    (h : fs.Leads (fs.startOf path) path.names n goal) :
    ∃ trail, fs.resolution path = ⟨goal, true, trail⟩ ∧ deepest trail ≤ n := by
  have hsound : Sound fs [] n := fun _ _ hknown => nomatch hknown
  obtain ⟨trail, hfound, -, -, hopens⟩ :=
    resolves_resolveWithin fs.entries.length h hsound (Nat.le_add_right _ _)
  refine ⟨trail, hfound, ?_⟩
  have hmost := hopens.most
  simp only [deepest, openCount] at hmost
  omega

/-- There is room for the links of a walk that the system can take. -/
theorem nestsTooDeep_of_leads {path : Path} (h : fs.Leads (fs.startOf path) path.names n goal)
    (hn : n ≤ maxHops) : fs.nestsTooDeep path = false := by
  obtain ⟨trail, hfound, hdeepest⟩ := resolution_of_leads h
  rw [nestsTooDeep, hfound, decide_eq_false_iff_not, Nat.not_lt]
  exact Nat.le_trans hdeepest (Nat.le_trans hn fs.limits.enough)

/-- **RESOLVING AGREES WITH FOLLOWING**: the place that a path stands for is the goal of its
    walk. -/
theorem resolve_of_leads {path : Path} (hstart : fs.Plain (fs.startOf path))
    (h : fs.Leads (fs.startOf path) path.names n goal) (hn : n ≤ maxHops) :
    fs.resolve path = .ok goal := by
  obtain ⟨trail, hfound, -⟩ := resolution_of_leads h
  rw [resolve, nestsTooDeep_of_leads h hn, hfound]
  rcases stat_plain (h.plain hstart) with hstat | hstat
  · simp only [hstat]
    cases fs.get? goal <;> rfl
  · simp only [hstat]
    rfl

end NoteDigest.Files
