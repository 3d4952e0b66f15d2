import Mathlib.Data.List.Induction
import NoteDigest.Proofs.Files.Entries
import NoteDigest.Proofs.Files.Names

/-! # Walks — where names lead, whoever follows them

    `Files.locate` follows a path with a limit on links and faults of many kinds;
    `Files.resolve` follows it with a memory and no faults.  Both go the same way.  This
    file says which way that is:

    * `Leads place names hops goal` is the relation that names lead from the place to the
      goal, through `hops` links;
    * a goal is unique (`Leads.unique`), and a walk can be cut and continued
      (`Leads.split`, `Leads.append`);
    * a walk ends at a *plain* place, one whose own names pass through no link
      (`Leads.plain`), and the names of such a place lead to it (`Plain.leads`). -/

namespace NoteDigest.Files

open NoteDigest.Path

variable {fs : Files} {place mid goal goal' : Place} {name : Name} {names rest : List Name}
  {n n' : Nat} {target : Text}

/-! ## Walks -/

/-- Names lead from a place to a goal, through a number of links.  Every name is taken in a
    directory; the goal itself may be missing. -/
inductive Leads (fs : Files) : Place → List Name → Nat → Place → Prop
  | done (place : Place) : Leads fs place [] 0 place
  | idle {place goal : Place} {name : Name} {rest : List Name} {n : Nat} :
      fs.hasDirectory place = true → isIdle name = true →
      Leads fs place rest n goal → Leads fs place (name :: rest) n goal
  | up {place goal : Place} {rest : List Name} {n : Nat} :
      fs.hasDirectory place = true →
      Leads fs place.dropLast rest n goal → Leads fs place (parentName :: rest) n goal
  | down {place goal : Place} {name : Name} {rest : List Name} {n : Nat} :
      fs.hasDirectory place = true → isStep name = true → fs.linkAt? place name = none →
      Leads fs (place ++ [name]) rest n goal → Leads fs place (name :: rest) n goal
  | link {place goal : Place} {name : Name} {rest : List Name} {n : Nat} {target : Text} :
      isStep name = true → fs.linkAt? place name = some target →
      Leads fs (linkStart place target) ((ofText target).names ++ rest) n goal →
      Leads fs place (name :: rest) (n + 1) goal

/-- No name both stays and leads down. -/
theorem not_idle_and_step (hidle : isIdle name = true) (hstep : isStep name = true) : False := by
  rw [not_isIdle_of_isStep hstep] at hidle
  cases hidle

/-- **ONE WAY**: names lead to one goal, through one number of links. -/
theorem Leads.unique (h : fs.Leads place names n goal) :
    ∀ {n' goal'}, fs.Leads place names n' goal' → n = n' ∧ goal = goal' := by
  induction h with
  | done place =>
      intro n' goal' h'
      cases h'
      exact ⟨rfl, rfl⟩
  | idle hdir hidle _ ih =>
      intro n' goal' h'
      cases h' with
      | idle _ _ h' => exact ih h'
      | up _ h' => exact absurd hidle (by decide)
      | down _ hstep _ _ => exact (not_idle_and_step hidle hstep).elim
      | link hstep _ _ => exact (not_idle_and_step hidle hstep).elim
  | up hdir _ ih =>
      intro n' goal' h'
      cases h' with
      | idle _ hidle _ => exact absurd hidle (by decide)
      | up _ h' => exact ih h'
      | down _ hstep _ _ => exact absurd hstep (by decide)
      | link hstep _ _ => exact absurd hstep (by decide)
  | down hdir hstep hnone _ ih =>
      intro n' goal' h'
      cases h' with
      | idle _ hidle _ => exact (not_idle_and_step hidle hstep).elim
      | up _ _ => exact absurd hstep (by decide)
      | down _ _ _ h' => exact ih h'
      | link _ hsome _ => rw [hnone] at hsome; cases hsome
  | link hstep hsome _ ih =>
      intro n' goal' h'
      cases h' with
      | idle _ hidle _ => exact (not_idle_and_step hidle hstep).elim
      | up _ _ => exact absurd hstep (by decide)
      | down _ _ hnone _ => rw [hnone] at hsome; cases hsome
      | link _ hsome' h' =>
          obtain rfl := Option.some.inj (hsome.symm.trans hsome')
          obtain ⟨rfl, rfl⟩ := ih h'
          exact ⟨rfl, rfl⟩

/-- A walk continues where another one ends. -/
theorem Leads.append (h : fs.Leads place names n mid) :
    ∀ {rest n' goal}, fs.Leads mid rest n' goal →
      fs.Leads place (names ++ rest) (n + n') goal := by
  induction h with
  | done place => intro rest n' goal h'; rw [Nat.zero_add]; exact h'
  | idle hdir hidle _ ih => intro rest n' goal h'; exact .idle hdir hidle (ih h')
  | up hdir _ ih => intro rest n' goal h'; exact .up hdir (ih h')
  | down hdir hstep hnone _ ih => intro rest n' goal h'; exact .down hdir hstep hnone (ih h')
  | link hstep hsome _ ih =>
      intro rest n' goal h'
      have hgoal := ih h'
      rw [List.append_assoc] at hgoal
      rw [Nat.succ_add]
      exact .link hstep hsome hgoal

theorem Leads.split_nil (h : fs.Leads place names n goal) :
    ∃ n₁ mid n₂, fs.Leads place [] n₁ mid ∧ fs.Leads mid names n₂ goal ∧ n = n₁ + n₂ :=
  ⟨0, place, n, .done place, h, (Nat.zero_add n).symm⟩

/-- A walk can be cut between any two names. -/
theorem Leads.split (h : fs.Leads place names n goal) :
    ∀ {first rest : List Name}, names = first ++ rest →
      ∃ n₁ mid n₂, fs.Leads place first n₁ mid ∧ fs.Leads mid rest n₂ goal ∧ n = n₁ + n₂ := by
  induction h with
  | done place =>
      intro first rest hnames
      obtain ⟨rfl, rfl⟩ := List.append_eq_nil_iff.mp hnames.symm
      exact (Leads.done place).split_nil
  | idle hdir hidle htail ih =>
      intro first rest hnames
      rcases List.cons_eq_append_iff.mp hnames with ⟨rfl, rfl⟩ | ⟨others, rfl, hothers⟩
      · exact (Leads.idle hdir hidle htail).split_nil
      · obtain ⟨n₁, mid, n₂, h₁, h₂, hn⟩ := ih hothers
        exact ⟨n₁, mid, n₂, .idle hdir hidle h₁, h₂, hn⟩
  | up hdir htail ih =>
      intro first rest hnames
      rcases List.cons_eq_append_iff.mp hnames with ⟨rfl, rfl⟩ | ⟨others, rfl, hothers⟩
      · exact (Leads.up hdir htail).split_nil
      · obtain ⟨n₁, mid, n₂, h₁, h₂, hn⟩ := ih hothers
        exact ⟨n₁, mid, n₂, .up hdir h₁, h₂, hn⟩
  | down hdir hstep hnone htail ih =>
      intro first rest hnames
      rcases List.cons_eq_append_iff.mp hnames with ⟨rfl, rfl⟩ | ⟨others, rfl, hothers⟩
      · exact (Leads.down hdir hstep hnone htail).split_nil
      · obtain ⟨n₁, mid, n₂, h₁, h₂, hn⟩ := ih hothers
        exact ⟨n₁, mid, n₂, .down hdir hstep hnone h₁, h₂, hn⟩
  | link hstep hsome htail ih =>
      intro first rest hnames
      rcases List.cons_eq_append_iff.mp hnames with ⟨rfl, rfl⟩ | ⟨others, rfl, rfl⟩
      · exact (Leads.link hstep hsome htail).split_nil
      · -- the cut is made behind the names of the link's target
        obtain ⟨n₁, mid, n₂, h₁, h₂, hn⟩ := ih (List.append_assoc _ others rest).symm
        exact ⟨n₁ + 1, mid, n₂, .link hstep hsome h₁, h₂, by omega⟩

/-- A walk to something that is there starts where something is. -/
theorem Leads.isSome_start (h : fs.Leads place names n goal)
    (hgoal : (fs.get? goal).isSome = true) : (fs.get? place).isSome = true := by
  cases h with
  | done => exact hgoal
  | idle hdir _ _ => rw [hasDirectory_iff.mp hdir]; rfl
  | up hdir _ => rw [hasDirectory_iff.mp hdir]; rfl
  | down hdir _ _ _ => rw [hasDirectory_iff.mp hdir]; rfl
  | link _ hsome _ => rw [hasDirectory_iff.mp (linkAt?_eq_some_iff.mp hsome).1]; rfl

/-! ## Plain places -/

/-- The names of a place lead down to it through directories, and none is that of a link. -/
def Plain (fs : Files) (place : Place) : Prop :=
  ∀ above name, above ++ [name] <+: place →
    fs.hasDirectory above = true ∧ isStep name = true ∧ fs.linkAt? above name = none

theorem plain_nil (fs : Files) : fs.Plain [] := by
  intro above name h
  exact absurd (List.prefix_nil.mp h) (by simp)

theorem Plain.above (h : fs.Plain place) (hmid : mid <+: place) : fs.Plain mid :=
  fun above name habove => h above name (habove.trans hmid)

theorem Plain.down (h : fs.Plain place) (hdir : fs.hasDirectory place = true)
    (hstep : isStep name = true) (hnone : fs.linkAt? place name = none) :
    fs.Plain (place ++ [name]) := by
  intro above last hlast
  rcases List.prefix_concat_iff.mp hlast with heq | hlast
  · obtain ⟨rfl, hname⟩ := List.append_inj' heq rfl
    obtain rfl := (List.cons.inj hname).1
    exact ⟨hdir, hstep, hnone⟩
  · exact h above last hlast

theorem Plain.linkStart (h : fs.Plain place) (target : Text) :
    fs.Plain (linkStart place target) := by
  rw [Files.linkStart]
  split
  · exact plain_nil fs
  · exact h

/-- **WALKS END AT PLAIN PLACES** if they start at one. -/
theorem Leads.plain (h : fs.Leads place names n goal) : fs.Plain place → fs.Plain goal := by
  induction h with
  | done place => exact id
  | idle _ _ _ ih => exact ih
  | up _ _ ih => intro hplain; exact ih (hplain.above (List.dropLast_prefix _))
  | down hdir hstep hnone _ ih => intro hplain; exact ih (hplain.down hdir hstep hnone)
  | @link place _ _ _ _ target _ _ _ ih => intro hplain; exact ih (hplain.linkStart target)

/-- The names of a plain place lead to it from the top, through no link. -/
theorem Plain.leads : ∀ {place : Place}, fs.Plain place → fs.Leads [] place 0 place := by
  intro place
  induction place using List.reverseRecOn with
  | nil => intro _; exact .done []
  | append_singleton above name ih =>
      intro h
      obtain ⟨hdir, hstep, hnone⟩ := h above name List.prefix_rfl
      have habove := ih (h.above (List.prefix_append above [name]))
      exact habove.append (.down hdir hstep hnone (.done _))

/-- The last names of a plain place lead to it from the place above them. -/
theorem Plain.leads_below (h : fs.Plain (place ++ names)) :
    fs.Leads place names 0 (place ++ names) := by
  -- the walk from the top passes through the place, and through no link
  obtain ⟨n₁, mid, n₂, habove, hbelow, hn⟩ := h.leads.split rfl
  obtain ⟨rfl, rfl⟩ := habove.unique (h.above (List.prefix_append place names)).leads
  rw [show n₂ = 0 by omega] at hbelow
  exact hbelow

end NoteDigest.Files
