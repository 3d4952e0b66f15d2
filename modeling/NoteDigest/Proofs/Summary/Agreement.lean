import NoteDigest.Proofs.Summary.Staging
import NoteDigest.Summary.Expand

/-! # Agreement — providers that summaries cannot tell apart

    A summary looks at the metadata of all notes and at the lines of those it selects.  A
    note whose metadata cannot be read, or that opts out, is never selected.  So two
    providers that list the same notes and differ in such hidden ones only give the same
    summaries, in the same way: the same notes are tried on the way to the same result,
    be it a fault or not (`Agrees.summary_eq`, `Agrees.expand_eq`). -/

namespace NoteDigest

section Loading

variable {ε α β : Type} {load load' : α → Except (LoadFault ε) β} {items : List α}

theorem loadEach_congr (h : ∀ item ∈ items, load' item = load item) :
    loadEach load' items = loadEach load items := by
  induction items with
  | nil => rfl
  | cons item rest ih =>
      obtain ⟨hitem, hrest⟩ := List.forall_mem_cons.mp h
      rw [loadEach, loadEach, hitem, ih hrest]

theorem triedBy_cons_of_not_fatal {item : α} {rest : List α}
    (h : ∀ cause, load item ≠ .error (.fatal cause)) :
    triedBy load (item :: rest) = item :: triedBy load rest := by
  rw [triedBy]
  split
  · rename_i cause hfatal
    exact absurd hfatal (h cause)
  · rfl

theorem triedBy_congr (h : ∀ item ∈ items, load' item = load item) :
    triedBy load' items = triedBy load items := by
  induction items with
  | nil => rfl
  | cons item rest ih =>
      obtain ⟨hitem, hrest⟩ := List.forall_mem_cons.mp h
      rw [triedBy, triedBy, hitem, ih hrest]

end Loading

namespace Provider

variable {ε : Type} {provider other : Provider ε} {refs : List NoteRef} {ref : NoteRef}
  {source text : Text} {layout : Layout} {query : Query} {stubs : List Note} {note : Note}

/-! ## Hidden notes -/

/-- A note takes no part in summaries: its metadata cannot be read, or it opts out. -/
def Hides (provider : Provider ε) (ref : NoteRef) : Prop :=
  provider.metadata ref = .error .unreadable
    ∨ ∃ metadata, provider.metadata ref = .ok metadata ∧ metadata.optedOut = true

/-- Two providers load a note in the same way, or hide it both. -/
def AgreesOn (provider other : Provider ε) (ref : NoteRef) : Prop :=
  (other.metadata ref = provider.metadata ref ∧ other.lines ref = provider.lines ref)
    ∨ (provider.Hides ref ∧ other.Hides ref)

/-- Two providers list the same notes and agree on each. -/
structure Agrees (provider other : Provider ε) : Prop where
  refs : other.refs = provider.refs
  notes : ∀ refs, provider.refs = .ok refs → ∀ ref ∈ refs, provider.AgreesOn other ref

theorem Hides.not_fatal (h : provider.Hides ref) (cause : ε) :
    provider.metadata ref ≠ .error (.fatal cause) := by
  obtain hunreadable | ⟨metadata, hmetadata, -⟩ := h
  · rw [hunreadable]
    exact nofun
  · rw [hmetadata]
    exact nofun

/-! ## The first stage -/

/-- The notes whose metadata is tried are the same. -/
theorem triedBy_metadata_eq (h : ∀ ref ∈ refs, provider.AgreesOn other ref) :
    triedBy other.metadata refs = triedBy provider.metadata refs := by
  induction refs with
  | nil => rfl
  | cons ref rest ih =>
      obtain ⟨href, hrest⟩ := List.forall_mem_cons.mp h
      rcases href with ⟨hmetadata, -⟩ | ⟨hhides, hhides'⟩
      · rw [triedBy, triedBy, hmetadata, ih hrest]
      · rw [triedBy_cons_of_not_fatal hhides.not_fatal, triedBy_cons_of_not_fatal hhides'.not_fatal,
          ih hrest]

/-- The stub of a note, as the first stage loads it. -/
def loadStub (provider : Provider ε) (ref : NoteRef) : Except (LoadFault ε) Note :=
  (provider.metadata ref).map (Note.stub ref)

theorem select_cons (note : Note) {found found' : Except ε (List Note)}
    (h : found'.map query.select = found.map query.select) :
    ((note :: ·) <$> found').map query.select = ((note :: ·) <$> found).map query.select := by
  cases found with
  | error cause =>
      cases found' with
      | error cause' => exact h
      | ok notes' => cases h
  | ok notes =>
      cases found' with
      | error cause' => cases h
      | ok notes' =>
          have hnotes : notes'.filter query.selects = notes.filter query.selects :=
            Except.ok.inj h
          show Except.ok ((note :: notes').filter query.selects)
            = Except.ok ((note :: notes).filter query.selects)
          rw [List.filter_cons, List.filter_cons, hnotes]

/-- A hidden note does not count among those selected. -/
theorem select_loadStub_of_hides (h : provider.Hides ref) (rest : List NoteRef) :
    (loadEach provider.loadStub (ref :: rest)).map query.select
      = (loadEach provider.loadStub rest).map query.select := by
  rw [loadEach, loadStub]
  obtain hunreadable | ⟨metadata, hmetadata, hout⟩ := h
  · rw [hunreadable]
    rfl
  · rw [hmetadata]
    have hselects : query.selects (Note.stub ref metadata) = false := by
      rw [Query.selects, show (Note.stub ref metadata).optedOut = true from hout]
      rfl
    cases loadEach provider.loadStub rest with
    | error cause => rfl
    | ok notes =>
        show Except.ok ((Note.stub ref metadata :: notes).filter query.selects) = _
        rw [List.filter_cons_of_neg (Bool.eq_false_iff.mp hselects)]
        rfl

/-- **THE FIRST STAGE** selects the same stubs, or fails for the same reason. -/
theorem select_loadStub_eq (h : ∀ ref ∈ refs, provider.AgreesOn other ref) :
    (loadEach other.loadStub refs).map query.select
      = (loadEach provider.loadStub refs).map query.select := by
  induction refs with
  | nil => rfl
  | cons ref rest ih =>
      obtain ⟨href, hrest⟩ := List.forall_mem_cons.mp h
      rcases href with ⟨hmetadata, -⟩ | ⟨hhides, hhides'⟩
      · have hload : other.loadStub ref = provider.loadStub ref := by
          rw [loadStub, loadStub, hmetadata]
        rw [loadEach, loadEach, hload]
        cases provider.loadStub ref with
        | ok note => exact select_cons note (ih hrest)
        | error fault =>
            cases fault with
            | unreadable => exact ih hrest
            | fatal cause => rfl
      · rw [select_loadStub_of_hides hhides, select_loadStub_of_hides hhides', ih hrest]

/-! ## Both stages -/

theorem summary_of_stubs_error {cause : ε} (hempty : ¬ (Query.ofSource source).isEmpty = true)
    (hstubs : provider.stubs = .error cause) :
    provider.summary source layout = ⟨.error cause, provider.probes, []⟩ := by
  rw [summary]
  simp only [hempty, Bool.false_eq_true, if_false, hstubs]

namespace Agrees

theorem sort (h : provider.Agrees other) (hrefs : provider.refs = .ok refs) :
    ∀ ref ∈ NoteRef.sort refs, provider.AgreesOn other ref :=
  fun ref href => h.notes refs hrefs ref (mem_sort.mp href)

theorem probes_eq (h : provider.Agrees other) : other.probes = provider.probes := by
  rw [probes, probes, h.refs]
  cases hrefs : provider.refs with
  | error cause => rfl
  | ok refs => exact triedBy_metadata_eq (h.sort hrefs)

theorem select_stubs_eq (h : provider.Agrees other) (query : Query) :
    other.stubs.map query.select = provider.stubs.map query.select := by
  rw [stubs, stubs, h.refs]
  cases hrefs : provider.refs with
  | error cause => rfl
  | ok refs => exact select_loadStub_eq (h.sort hrefs)

/-- **THE SECOND STAGE** loads the same lines: what is selected is not hidden. -/
theorem fill_eq (h : provider.Agrees other) (hstubs : provider.stubs = .ok stubs)
    (hnote : note ∈ query.select stubs) : other.fill note = provider.fill note := by
  obtain ⟨hmem, hselects⟩ := List.mem_filter.mp hnote
  obtain ⟨refs, ref, metadata, hrefs, href, hmetadata, rfl⟩ := exists_of_mem_stubs hstubs hmem
  rcases h.notes refs hrefs ref href with ⟨-, hlines⟩ | ⟨hhides, -⟩
  · rw [fill, fill, show (Note.stub ref metadata).ref = ref from rfl, hlines]
  · obtain hunreadable | ⟨metadata', hmetadata', hout⟩ := hhides
    · cases hunreadable.symm.trans hmetadata
    · obtain rfl := Except.ok.inj (hmetadata'.symm.trans hmetadata)
      rw [Query.selects, show (Note.stub ref metadata').optedOut = true from hout] at hselects
      cases hselects

/-- **THE SAME SUMMARY**, on the same way. -/
theorem summary_eq (h : provider.Agrees other) (source : Text) (layout : Layout) :
    other.summary source layout = provider.summary source layout := by
  by_cases hempty : (Query.ofSource source).isEmpty = true
  · rw [summary, summary]
    simp only [hempty, if_true]
  have hselect := h.select_stubs_eq (Query.ofSource source)
  cases hstubs : provider.stubs with
  | error cause =>
      have hstubs' : other.stubs = .error cause := by
        rw [hstubs] at hselect
        cases hother : other.stubs with
        | error cause' => rw [hother] at hselect; exact hselect
        | ok stubs => rw [hother] at hselect; cases hselect
      rw [summary_of_stubs_error hempty hstubs, summary_of_stubs_error hempty hstubs', h.probes_eq]
  | ok stubs =>
      -- hidden notes may be there or not, but they are never selected
      obtain ⟨stubs', hstubs', hsame⟩ : ∃ stubs', other.stubs = .ok stubs'
          ∧ (Query.ofSource source).select stubs' = (Query.ofSource source).select stubs := by
        rw [hstubs] at hselect
        cases hother : other.stubs with
        | error cause => rw [hother] at hselect; cases hselect
        | ok stubs' =>
            rw [hother] at hselect
            exact ⟨stubs', rfl, Except.ok.inj hselect⟩
      have hfill : ∀ note ∈ (Query.ofSource source).select stubs,
          other.fill note = provider.fill note := fun note hnote => h.fill_eq hstubs hnote
      rw [summary_of_stubs_ok hempty hstubs, summary_of_stubs_ok hempty hstubs', hsame,
        fillSelected, fillSelected, loadEach_congr hfill, triedBy_congr hfill, h.probes_eq]

theorem expand_eq (h : provider.Agrees other) (text : Text) (layout : Layout) :
    other.expand text layout = provider.expand text layout := by
  simp only [expand, h.summary_eq]

end Agrees
end Provider
end NoteDigest
