import Mathlib.Data.List.Forall2
import NoteDigest.Summary.Expand

/-! # Runs — the laws of doing one after the other

    A run is a result together with the notes that were tried for it.  Runs can be changed
    in their results (`Run.map`) and done one after the other (`Run.andThen`), and the two
    do not get into each other's way.  So a sequence of runs can be cut anywhere
    (`sequence_append`), and its result is that of the single ones, up to the first that
    fails (`result_sequence`). -/

namespace NoteDigest.Run

variable {ε α β γ δ : Type} {a : Run ε α} {b : Run ε β} {c : Run ε γ}

/-! ## Results -/

theorem map_map (f : α → β) (g : β → γ) (a : Run ε α) :
    (a.map f).map g = a.map fun x => g (f x) := by
  obtain ⟨result, probes, reads⟩ := a
  cases result <;> rfl

/-- Only the result that a run has counts. -/
theorem map_congr {f g : α → β} (h : ∀ x, a.result = .ok x → f x = g x) :
    a.map f = a.map g := by
  obtain ⟨result, probes, reads⟩ := a
  cases result with
  | error cause => rfl
  | ok x =>
      have hx : f x = g x := h x rfl
      show Run.mk (.ok (f x)) probes reads = Run.mk (.ok (g x)) probes reads
      rw [hx]

theorem map_eq_self {f : α → α} (h : ∀ x, a.result = .ok x → f x = x) : a.map f = a := by
  obtain ⟨result, probes, reads⟩ := a
  cases result with
  | error cause => rfl
  | ok x =>
      have hx : f x = x := h x rfl
      show Run.mk (.ok (f x)) probes reads = _
      rw [hx]

/-! ## One after the other -/

theorem pure_andThen (x : α) (b : Run ε β) : (pure x).andThen b = b.map fun y => (x, y) := rfl

theorem andThen_map (f : α → γ) (g : β → δ) (a : Run ε α) (b : Run ε β) :
    (a.map f).andThen (b.map g) = (a.andThen b).map fun p => (f p.1, g p.2) := by
  obtain ⟨result, probes, reads⟩ := a
  cases result with
  | error cause => rfl
  | ok x =>
      obtain ⟨result, probes', reads'⟩ := b
      cases result <;> rfl

theorem andThen_map_left (f : α → γ) (a : Run ε α) (b : Run ε β) :
    (a.map f).andThen b = (a.andThen b).map fun p => (f p.1, p.2) := by
  have hb : b.map (fun y => y) = b := map_eq_self fun _ _ => rfl
  rw [← andThen_map f (fun y => y), hb]

theorem andThen_map_right (g : β → δ) (a : Run ε α) (b : Run ε β) :
    a.andThen (b.map g) = (a.andThen b).map fun p => (p.1, g p.2) := by
  have ha : a.map (fun x => x) = a := map_eq_self fun _ _ => rfl
  rw [← andThen_map (fun x => x) g, ha]

theorem andThen_assoc (a : Run ε α) (b : Run ε β) (c : Run ε γ) :
    (a.andThen b).andThen c
      = (a.andThen (b.andThen c)).map fun p => ((p.1, p.2.1), p.2.2) := by
  obtain ⟨result, probes, reads⟩ := a
  cases result with
  | error cause => rfl
  | ok x =>
      obtain ⟨result, probes', reads'⟩ := b
      cases result with
      | error cause => rfl
      | ok y =>
          obtain ⟨result, probes'', reads''⟩ := c
          cases result <;> simp [andThen, map, Except.map]

/-- Both of two runs have succeeded when they have together. -/
theorem result_andThen_eq_ok {x : α × β} (h : (a.andThen b).result = .ok x) :
    a.result = .ok x.1 ∧ b.result = .ok x.2 := by
  obtain ⟨result, probes, reads⟩ := a
  cases result with
  | error cause => cases h
  | ok y =>
      obtain ⟨result, probes', reads'⟩ := b
      cases result with
      | error cause => cases h
      | ok z =>
          obtain rfl : (y, z) = x := Except.ok.inj h
          exact ⟨rfl, rfl⟩

/-! ## Sequences -/

theorem sequence_cons (run : Run ε α) (rest : List (Run ε α)) :
    sequence (run :: rest) = (run.andThen (sequence rest)).map fun p => p.1 :: p.2 := rfl

/-- **A SEQUENCE CAN BE CUT** anywhere. -/
theorem sequence_append (runs runs' : List (Run ε α)) :
    sequence (runs ++ runs')
      = ((sequence runs).andThen (sequence runs')).map fun p => p.1 ++ p.2 := by
  induction runs with
  | nil =>
      show sequence runs' = ((pure []).andThen (sequence runs')).map _
      rw [pure_andThen, map_map]
      exact (map_eq_self fun _ _ => rfl).symm
  | cons run rest ih =>
      calc sequence (run :: (rest ++ runs'))
          = (run.andThen (sequence (rest ++ runs'))).map fun p => p.1 :: p.2 := rfl
        _ = (run.andThen ((sequence rest).andThen (sequence runs'))).map
              fun p => p.1 :: (p.2.1 ++ p.2.2) := by rw [ih, andThen_map_right, map_map]
        _ = ((run.andThen (sequence rest)).andThen (sequence runs')).map
              fun p => p.1.1 :: (p.1.2 ++ p.2) := by rw [andThen_assoc, map_map]
        _ = ((sequence (run :: rest)).andThen (sequence runs')).map fun p => p.1 ++ p.2 := by
              rw [sequence_cons, andThen_map_left, map_map]
              rfl

/-- **THE RESULT** of a sequence is that of its runs, up to the first that fails. -/
theorem result_sequence (runs : List (Run ε α)) :
    (sequence runs).result = runs.mapM Run.result := by
  induction runs with
  | nil => rfl
  | cons run rest ih =>
      rw [List.mapM_cons, ← ih, sequence_cons]
      obtain ⟨result, probes, reads⟩ := run
      cases result with
      | error cause => rfl
      | ok x =>
          show Except.map _ (Except.map _ (sequence rest).result)
            = (sequence rest).result >>= fun xs => Except.ok (x :: xs)
          cases (sequence rest).result <;> rfl

/-- A sequence that succeeds gives one result for each of its runs. -/
theorem forall₂_of_sequence {runs : List (Run ε α)} :
    ∀ {xs : List α}, (sequence runs).result = .ok xs →
      List.Forall₂ (fun run x => run.result = .ok x) runs xs := by
  induction runs with
  | nil =>
      intro xs h
      obtain rfl : [] = xs := Except.ok.inj h
      exact .nil
  | cons run rest ih =>
      intro xs h
      cases hpair : (run.andThen (sequence rest)).result with
      | error cause =>
          rw [sequence_cons, map, hpair] at h
          cases h
      | ok p =>
          rw [sequence_cons, map, hpair] at h
          obtain rfl : p.1 :: p.2 = xs := Except.ok.inj h
          obtain ⟨hrun, hrest⟩ := result_andThen_eq_ok hpair
          exact .cons hrun (ih hrest)

theorem ne_nil_of_sequence {runs : List (Run ε α)} {xs : List α}
    (h : (sequence runs).result = .ok xs) (hne : runs ≠ []) : xs ≠ [] := by
  rintro rfl
  cases forall₂_of_sequence h
  exact hne rfl

/-- A sequence of runs that succeed succeeds. -/
theorem exists_of_forall_exists {runs : List (Run ε α)}
    (h : ∀ run ∈ runs, ∃ x, run.result = .ok x) : ∃ xs, (sequence runs).result = .ok xs := by
  rw [result_sequence]
  induction runs with
  | nil => exact ⟨[], rfl⟩
  | cons run rest ih =>
      obtain ⟨⟨x, hx⟩, hrest⟩ := List.forall_mem_cons.mp h
      obtain ⟨xs, hxs⟩ := ih hrest
      exact ⟨x :: xs, by rw [List.mapM_cons, hx, hxs]; rfl⟩

theorem map_isOk_iff (f : α → β) (a : Run ε α) :
    (∃ y, (a.map f).result = .ok y) ↔ ∃ x, a.result = .ok x := by
  obtain ⟨result, probes, reads⟩ := a
  cases result with
  | error cause => exact iff_of_false (fun ⟨y, h⟩ => nomatch h) fun ⟨x, h⟩ => nomatch h
  | ok x => exact iff_of_true ⟨f x, rfl⟩ ⟨x, rfl⟩

/-- **A SEQUENCE SUCCEEDS** exactly when all of its runs do. -/
theorem sequence_isOk_iff {runs : List (Run ε α)} :
    (∃ xs, (sequence runs).result = .ok xs) ↔ ∀ run ∈ runs, ∃ x, run.result = .ok x := by
  refine ⟨?_, exists_of_forall_exists⟩
  rintro ⟨xs, hxs⟩
  have hall := forall₂_of_sequence hxs
  clear hxs
  induction hall with
  | nil => exact List.forall_mem_nil _
  | cons hrun _ ih => exact List.forall_mem_cons.mpr ⟨⟨_, hrun⟩, ih⟩

/-- What is tried in two runs is tried in one of them. -/
theorem mem_probes_andThen {ref : NoteRef} (h : ref ∈ (a.andThen b).probes) :
    ref ∈ a.probes ∨ ref ∈ b.probes := by
  rw [andThen] at h
  split at h
  · exact .inl h
  · exact List.mem_append.mp h

theorem mem_probes_sequence {runs : List (Run ε α)} {ref : NoteRef}
    (h : ref ∈ (sequence runs).probes) : ∃ run ∈ runs, ref ∈ run.probes := by
  induction runs with
  | nil => cases h
  | cons run rest ih =>
      rcases mem_probes_andThen h with hrun | hrest
      · exact ⟨run, List.mem_cons_self, hrun⟩
      · obtain ⟨other, hother, hprobe⟩ := ih hrest
        exact ⟨other, List.mem_cons_of_mem run hother, hprobe⟩

/-! ## Reads -/

/-- What is asked for in a sequence is what its runs ask for, one after the other, up to the
    first that fails. -/
theorem reads_sequence_isPrefix (runs : List (Run ε α)) :
    (sequence runs).reads <+: runs.flatMap Run.reads := by
  induction runs with
  | nil => exact List.nil_prefix
  | cons run rest ih =>
      rw [sequence_cons, List.flatMap_cons]
      show (run.andThen (sequence rest)).reads <+: _
      rw [andThen]
      split
      · exact List.prefix_append run.reads _
      · exact (List.prefix_append_right_inj run.reads).mpr ih

/-- **A SEQUENCE THAT SUCCEEDS** asks for all that its runs ask for. -/
theorem reads_sequence {runs : List (Run ε α)} :
    ∀ {xs : List α}, (sequence runs).result = .ok xs →
      (sequence runs).reads = runs.flatMap Run.reads := by
  induction runs with
  | nil => intro xs _; rfl
  | cons run rest ih =>
      intro xs h
      cases hpair : (run.andThen (sequence rest)).result with
      | error cause =>
          rw [sequence_cons, map, hpair] at h
          cases h
      | ok p =>
          obtain ⟨hrun, hrest⟩ := result_andThen_eq_ok hpair
          rw [sequence_cons, List.flatMap_cons, ← ih hrest]
          show (run.andThen (sequence rest)).reads = _
          rw [andThen, hrun]

end NoteDigest.Run
