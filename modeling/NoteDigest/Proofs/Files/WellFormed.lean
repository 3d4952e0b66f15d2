import Mathlib.Data.List.TakeWhile
import NoteDigest.Proofs.Files.Resolving
import NoteDigest.Vault.Basic

/-! # Well-formed trees — names that can be written

    Entries of a real file system have names without slashes and NULs, and the working
    directory is known by its true place.  In such a tree every path that leads to
    something stands for it (`placeOf_of_leads`), and a place that holds something can be
    written as text.

    A link further down than paths reach is taken for an ordinary name where a path is
    resolved by looking at one place after the other.  `resolve` follows it.  What a program
    does with every path is therefore told of trees without such links (`WithinReach`). -/

namespace NoteDigest

/-- An entry that a system keeps: the target of a link holds no NUL. -/
def Entry.isProper : Entry → Bool
  | .link target => !Text.hasNul target
  | _ => true

/-- An entry that the system can look at by the path of its place, if it is a link. -/
def Entry.isWithinReach (place : Place) : Entry → Bool
  | .link _ => !(Path.toPlace place).isLong
  | _ => true

namespace Files

open NoteDigest.Path

variable {fs fs' : Files} {place goal : Place} {names : List Name} {n : Nat} {entry : Entry}

/-- **WELL-FORMED**: what stands in the tree has the names of entries, and paths start from
    a directory that is known by its plain place. -/
structure WellFormed (fs : Files) : Prop where
  names : ∀ entry ∈ fs.entries, ∀ name ∈ entry.1, IsName name
  proper : ∀ entry ∈ fs.entries, entry.2.isProper = true
  here : fs.Plain fs.here
  directory : fs.hasDirectory fs.here = true

/-- **WITHIN REACH**: a well-formed tree in which no link stands too far down. -/
structure WithinReach (fs : Files) : Prop extends fs.WellFormed where
  links : ∀ entry ∈ fs.entries, entry.2.isWithinReach entry.1 = true

namespace WellFormed

theorem isName (h : fs.WellFormed) (hplace : (fs.get? place).isSome = true) :
    ∀ name ∈ place, IsName name := by
  intro name hname
  obtain ⟨entry, hget⟩ := Option.isSome_iff_exists.mp hplace
  exact h.names (place, entry) (mem_entries_of_get? (List.ne_nil_of_mem hname) hget) name hname

theorem plain_startOf (h : fs.WellFormed) (path : Path) : fs.Plain (fs.startOf path) := by
  rw [startOf]
  split
  · exact plain_nil fs
  · exact h.here

end WellFormed

theorem hasNul_of_isIdle {name : Name} (h : isIdle name = true) :
    Text.hasNul name = false := by
  rw [isIdle, Bool.or_eq_true] at h
  rcases h with h | h
  · rw [eq_of_beq h]
    rfl
  · rw [eq_of_beq h]
    rfl

/-- Names that lead to something hold no NUL. -/
theorem Leads.nulless (hfs : fs.WellFormed) (h : fs.Leads place names n goal) :
    (fs.get? goal).isSome = true → ∀ name ∈ names, Text.hasNul name = false := by
  induction h with
  | done place =>
      intro _ name hname
      cases hname
  | idle hdir hidle _ ih =>
      intro hgoal
      exact List.forall_mem_cons.mpr ⟨hasNul_of_isIdle hidle, ih hgoal⟩
  | up hdir _ ih =>
      intro hgoal
      exact List.forall_mem_cons.mpr ⟨rfl, ih hgoal⟩
  | down hdir hstep hnone hrest ih =>
      intro hgoal
      have hname := hfs.isName (hrest.isSome_start hgoal) _ (List.mem_append_right _ (.head []))
      exact List.forall_mem_cons.mpr ⟨hname.nulless, ih hgoal⟩
  | link hstep hsome hrest ih =>
      intro hgoal
      have hpresent := Option.isSome_of_eq_some (linkAt?_eq_some_iff.mp hsome).2
      have hname := hfs.isName hpresent _ (List.mem_append_right _ (.head []))
      exact List.forall_mem_cons.mpr
        ⟨hname.nulless, fun name hmem => ih hgoal name (List.mem_append_right _ hmem)⟩

theorem beforeNul_of_nulless {path : Path} (h : ∀ name ∈ path.names, Text.hasNul name = false) :
    path.beforeNul = path := by
  rw [beforeNul, List.takeWhile_eq_self_iff.mpr fun name hname => by rw [h name hname]; rfl]

/-- Where no name holds a NUL, the path is followed to its end. -/
theorem placeOf_of_nulless {path : Path} (h : ∀ name ∈ path.names, Text.hasNul name = false) :
    fs.placeOf path = match fs.resolve path with
      | .ok place => .ok place
      | .error .tooDeep => .error .tooDeep
      | .error .circle => .error .circularLink := by
  have hany : path.names.any Text.hasNul = false := List.any_eq_false.mpr fun name hname => by
    rw [h name hname]
    exact Bool.false_ne_true
  have hnul : fs.noticesNul path = false := by rw [noticesNul, hany, Bool.false_and]
  rw [placeOf, hnul, beforeNul_of_nulless h]
  by_cases hdeep : fs.nestsTooDeep path = true
  · rw [if_pos hdeep, resolve, if_pos hdeep]
  · refine (if_neg hdeep).trans ((if_neg Bool.false_ne_true).trans ?_)
    cases fs.resolve path with
    | ok place => rfl
    | error snag => cases snag <;> rfl

theorem placeOf_of_nestsTooDeep {path : Path} (h : fs.nestsTooDeep path.beforeNul = true) :
    fs.placeOf path = .error .tooDeep := by
  rw [placeOf, if_pos h]

/-- **A PATH STANDS FOR WHAT IT LEADS TO**, if anything is there. -/
theorem placeOf_of_leads (hfs : fs.WellFormed) {path : Path}
    (h : fs.Leads (fs.startOf path) path.names n goal) (hn : n ≤ maxHops)
    (hgoal : (fs.get? goal).isSome = true) : fs.placeOf path = .ok goal := by
  rw [placeOf_of_nulless (h.nulless hfs hgoal),
    resolve_of_leads (hfs.plain_startOf path) h hn]

/-! ## Trees that stay well-formed -/

/-- Above a plain place that is a directory there are only directories. -/
theorem hasDirectory_of_prefix (hplain : fs.Plain place) (hdir : fs.hasDirectory place = true)
    {above : Place} (h : above <+: place) : fs.hasDirectory above = true := by
  obtain ⟨below, rfl⟩ := h
  cases below with
  | nil => rwa [List.append_nil] at hdir
  | cons name rest => exact (hplain above name (by simp)).1

/-- **DIRECTORIES STAY**: where no directory goes, paths start from the same plain place. -/
theorem here_of_keeping (hfs : fs.WellFormed) (hhere : fs'.here = fs.here)
    (hkept : ∀ place, fs.hasDirectory place = true → fs'.get? place = fs.get? place) :
    fs'.Plain fs'.here ∧ fs'.hasDirectory fs'.here = true := by
  have hdir : ∀ above, above <+: fs.here → fs'.get? above = some .directory := by
    intro above habove
    have hold := hasDirectory_of_prefix hfs.here hfs.directory habove
    rw [hkept above hold, hasDirectory_iff.mp hold]
  rw [hhere]
  constructor
  · intro above name habove
    have hbelow : above <+: fs.here := (List.prefix_append above [name]).trans habove
    refine ⟨hasDirectory_iff.mpr (hdir above hbelow), (hfs.here above name habove).2.1, ?_⟩
    refine linkAt?_eq_none fun target htarget => ?_
    cases (hdir _ habove).symm.trans htarget
  · exact hasDirectory_iff.mpr (hdir fs.here List.prefix_rfl)

namespace WellFormed

/-- **AN ENTRY PUT** where no directory is keeps the tree well-formed. -/
theorem put (hfs : fs.WellFormed) (hnames : ∀ name ∈ place, IsName name)
    (hplace : fs.hasDirectory place = false) (hentry : entry.isProper = true) :
    (fs.put place entry).WellFormed := by
  have hhere : (fs.put place entry).here = fs.here := rfl
  obtain ⟨hplain, hdir⟩ := here_of_keeping hfs hhere fun other hother => by
    rw [get?_put (ne_nil_of_not_hasDirectory hplace), if_neg (ne_of_hasDirectory hplace hother)]
  refine ⟨?_, ?_, hplain, hdir⟩
  · intro item hitem
    rcases List.mem_cons.mp hitem with rfl | hitem
    · exact hnames
    · exact hfs.names item (List.mem_filter.mp hitem).1
  · intro item hitem
    rcases List.mem_cons.mp hitem with rfl | hitem
    · exact hentry
    · exact hfs.proper item (List.mem_filter.mp hitem).1

/-- **AN ENTRY TAKEN AWAY** that is no directory leaves the tree well-formed. -/
theorem erase (hfs : fs.WellFormed) (hplace : fs.hasDirectory place = false) :
    (fs.erase place).WellFormed := by
  have hhere : (fs.erase place).here = fs.here := rfl
  obtain ⟨hplain, hdir⟩ := here_of_keeping hfs hhere fun other hother => by
    rw [get?_erase (ne_nil_of_not_hasDirectory hplace), if_neg (ne_of_hasDirectory hplace hother)]
  refine ⟨?_, ?_, hplain, hdir⟩
  · intro item hitem
    exact hfs.names item (List.mem_filter.mp hitem).1
  · intro item hitem
    exact hfs.proper item (List.mem_filter.mp hitem).1

end WellFormed

end Files
end NoteDigest
