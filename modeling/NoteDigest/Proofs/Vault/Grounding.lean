import NoteDigest.Proofs.Fragment.Excerpts
import NoteDigest.Proofs.Summary.Tracing
import NoteDigest.Proofs.Vault.Resilience

/-! # Grounding — summaries take lines that are there, and all of them

    A summary selects notes by their metadata and reads their lines afterwards.  In a vault
    without memory both come from the same text: a note has metadata exactly when it has
    lines, and its occurrences are those of its lines (`exists_of_mem_readableNotes`).  So
    no note is lost between the two stages: what is loaded are the references selected, one
    by one (`map_ref_select_readableNotes`), and each gives what its text says
    (`summary_line_by_line`). -/

namespace NoteDigest.Vault

open NoteDigest.Path Files

variable {vault : Vault} {fs : Files} {ref : NoteRef} {refs : List NoteRef} {note : Note}
  {source : Text} {query : Query}

/-! ## What is loaded -/

/-- **WHAT IS LOADED** are the readable notes that the query selects. -/
theorem loaded_eq (hmemory : vault.memory = []) (hfs : fs.WellFormed)
    (h : vault.notes fs = .ok refs) (hconverts : ∀ ref ∈ refs, vault.Converts fs ref)
    (query : Query) :
    (vault.provider fs).loaded query = .ok (query.select (vault.readableNotes fs)) := by
  rw [Provider.loaded_eq (serves_notes hmemory hfs h hconverts), sort_notes h,
    readableNotes_of_notes h,
    List.filterMap_congr fun ref href => document?_eq hmemory (hconverts ref href)]

/-- A readable note has the lines of its file, and what the scanner finds in them. -/
theorem exists_of_mem_readableNotes (h : vault.notes fs = .ok refs)
    (hnote : note ∈ vault.readableNotes fs) :
    note.ref ∈ refs ∧ vault.lines fs note.ref = .ok note.lines ∧ note.Scanned := by
  rw [readableNotes_of_notes h, List.mem_filterMap] at hnote
  obtain ⟨ref, href, hsome⟩ := hnote
  cases hlines : vault.lines fs ref with
  | error fault => rw [hlines] at hsome; cases hsome
  | ok lines =>
      rw [hlines] at hsome
      obtain rfl : Note.ofLines ref lines = note := Option.some.inj hsome
      exact ⟨href, hlines, rfl⟩

/-! ## What is selected -/

/-- A reference is wanted when its note can be read and is accepted. -/
theorem wants_eq (hmemory : vault.memory = []) (h : vault.Converts fs ref) :
    (vault.provider fs).wants query ref
      = ((vault.lines fs ref).toOption.map (Note.ofLines ref)).any query.accepts := by
  rw [Provider.wants, provider_metadata hmemory]
  cases hlines : vault.lines fs ref with
  | error fault => rfl
  | ok lines =>
      obtain ⟨found, hfound⟩ := Note.metadataOf_isOk_iff.mpr (h lines hlines)
      simp only [hfound]
      show _ = query.accepts (Note.ofLines ref lines)
      rw [Query.accepts, Note.ofLines, ← Note.optedOut_of_metadataOf hfound,
        ← Note.occurrences_of_metadataOf hfound]

/-- **NONE IS LOST**: the notes selected with their lines are those of the references that are
    selected by metadata, in the same order. -/
theorem map_ref_select_readableNotes (hmemory : vault.memory = []) (h : vault.notes fs = .ok refs)
    (hconverts : ∀ ref ∈ refs, vault.Converts fs ref) (hwants : query.isEmpty = false) :
    (query.select (vault.readableNotes fs)).map Note.ref
      = refs.filter ((vault.provider fs).wants query) := by
  rw [Query.select_eq_filter_accepts hwants, readableNotes_of_notes h, List.filter_filterMap,
    List.map_filterMap, ← List.filterMap_eq_filter]
  refine List.filterMap_congr fun ref href => ?_
  rw [Option.guard, wants_eq hmemory (hconverts ref href)]
  cases (vault.lines fs ref).toOption with
  | none => rfl
  | some lines =>
      show ((some (Note.ofLines ref lines)).filter _).map Note.ref
        = if (some (Note.ofLines ref lines)).any _ = true then some ref else none
      rw [Option.filter_some, Option.any_some]
      split <;> rfl

/-! ## Line by line -/

/-- What keeps the notes from being listed ends a summary. -/
theorem summary_of_notes_error {fault : Fault} (h : vault.notes fs = .error fault)
    (hwants : (Query.ofSource source).isEmpty = false) (layout : Layout) :
    (vault.summary fs source layout).1 = .error fault := by
  have hstubs : (vault.provider fs).stubs = .error fault := by
    rw [Provider.stubs, show (vault.provider fs).refs = .error fault from h]
    rfl
  exact Provider.summary_result_of_stubs_error (by simp [hwants]) hstubs

/-- **LINE BY LINE**, for a vault without memory whose front matter converts and a query that
    wants something.  If the notes cannot be listed, that is the fault of the summary.  If they
    are listed, notes are loaded and there is a summary of them:

    * the notes are those of the references selected, one for each, with the lines of their
      files and the occurrences in these lines;
    * no occurrence that is wanted is behind the end of its note, so each gives a line, and
      each note gives one at least; what is given is a line of the note with the tag on it,
      at the start of the line or behind a blank;
    * the markdown and the counts are those of the fragments made of these lines.  The notes
      counted are those selected, and there are no more of them than fragments. -/
theorem summary_line_by_line (hmemory : vault.memory = []) (hfs : fs.WellFormed)
    (hconverts : ∀ refs, vault.notes fs = .ok refs → ∀ ref ∈ refs, vault.Converts fs ref)
    (hwants : (Query.ofSource source).isEmpty = false) (layout : Layout) :
    (∀ fault, vault.notes fs = .error fault → (vault.summary fs source layout).1 = .error fault)
      ∧ ∀ refs, vault.notes fs = .ok refs →
        ∃ notes, (vault.provider fs).loaded (Query.ofSource source) = .ok notes
          ∧ notes.map Note.ref
              = refs.filter ((vault.provider fs).wants (Query.ofSource source))
          ∧ (∀ note ∈ notes, vault.lines fs note.ref = .ok note.lines ∧ note.Scanned
              ∧ note.Grounded (Query.ofSource source).wanted)
          ∧ ∃ found, (vault.summary fs source layout).1 = .ok found
            ∧ found.Tells (Query.ofSource source) layout notes
            ∧ found.noteCount
                = (refs.filter ((vault.provider fs).wants (Query.ofSource source))).length
            ∧ found.noteCount ≤ found.fragmentCount := by
  refine ⟨fun fault hnotes => summary_of_notes_error hnotes hwants layout, fun refs hnotes => ?_⟩
  have hall := hconverts refs hnotes
  have hloaded := loaded_eq hmemory hfs hnotes hall (Query.ofSource source)
  have hselected := map_ref_select_readableNotes hmemory hnotes hall hwants
  have hgrounded : ∀ note ∈ (Query.ofSource source).select (vault.readableNotes fs),
      vault.lines fs note.ref = .ok note.lines ∧ note.Scanned
        ∧ note.Grounded (Query.ofSource source).wanted := by
    intro note hnote
    obtain ⟨hreadable, hselects⟩ := List.mem_filter.mp hnote
    obtain ⟨-, hlines, hscanned⟩ := exists_of_mem_readableNotes hnotes hreadable
    exact ⟨hlines, hscanned, hscanned.grounded hselects⟩
  have htells := Summary.tells_ofFragments layout fun note hnote => (hgrounded note hnote).2.2.gives
  refine ⟨_, hloaded, hselected, hgrounded, _, ?_, htells, ?_, ?_⟩
  · show ((vault.provider fs).summary source layout).result = _
    rw [Provider.summary_result_of_loaded layout (by simp [hwants]), hloaded]
    rfl
  · rw [htells.noteCount, ← hselected, List.length_map]
  · rw [htells.noteCount, htells.fragmentCount]
    exact length_le_length_fragments fun note hnote => (hgrounded note hnote).2.2.gives

/-- Two notes: `a` has the tag behind its front matter, in a fenced block and twice on the line
    behind it; `b` has no tag. -/
def outlinedVault : Files :=
  folder "vault".toList
    [("a.md".toList, Text.toUtf8 "---\nk: v\n---\n~~~\n#t x\n~~~\nsee #t/ or #t/x\n".toList),
     ("b.md".toList, Text.toUtf8 "no tag\n".toList)]

/-- One note is counted, with two fragments: the tag in the fenced block gives none. -/
theorem outlinedVault_lines :
    outlinedVault.WellFormed
      ∧ (ofText "vault".toList).notes outlinedVault
        = .ok [⟨"a.md".toList, ['a']⟩, ⟨"b.md".toList, ['b']⟩]
      ∧ ∃ found, ((ofText "vault".toList).summary outlinedVault "tags: #t".toList
          ⟨true, true⟩).1 = .ok found ∧ found.noteCount = 1 ∧ found.fragmentCount = 2 := by
  have hfs : outlinedVault.WellFormed := ⟨by decide +kernel, by decide, plain_nil _, rfl⟩
  have hnotes : (ofText "vault".toList).notes outlinedVault
      = .ok [⟨"a.md".toList, ['a']⟩, ⟨"b.md".toList, ['b']⟩] :=
    notes_of_ascending rfl (by decide +kernel) (by decide +kernel)
      (show List.Pairwise _ _ from by decide)
  have hconverts : ∀ refs, (ofText "vault".toList).notes outlinedVault = .ok refs →
      ∀ ref ∈ refs, (ofText "vault".toList).Converts outlinedVault ref := by
    intro refs hrefs
    obtain rfl := Except.ok.inj (hnotes.symm.trans hrefs)
    decide +kernel
  have hwants : (Query.ofSource "tags: #t".toList).isEmpty = false := by decide +kernel
  obtain ⟨notes, -, hselected, hgrounded, found, hfound, htells, hcount, -⟩ :=
    (summary_line_by_line rfl hfs hconverts hwants ⟨true, true⟩).2 _ hnotes
  refine ⟨hfs, hnotes, found, hfound, hcount.trans (by decide +kernel), ?_⟩
  -- the one note selected is `a`, with the lines of its file
  have hone : notes.map Note.ref = [⟨"a.md".toList, ['a']⟩] :=
    hselected.trans (by decide +kernel)
  obtain ⟨note, rfl, href⟩ := List.map_eq_singleton_iff.mp hone
  obtain ⟨hlines, hscanned, hgiven⟩ := hgrounded note List.mem_cons_self
  have hread : (ofText "vault".toList).lines outlinedVault ⟨"a.md".toList, ['a']⟩
      = .ok ["---".toList, "k: v".toList, "---".toList, "~~~".toList, "#t x".toList,
          "~~~".toList, "see #t/ or #t/x".toList, []] := by
    decide +kernel
  rw [href, hread] at hlines
  rw [htells.fragmentCount, length_fragments, List.map_singleton, List.sum_singleton,
    hgiven.complete, hscanned, ← Except.ok.inj hlines]
  decide +kernel

end NoteDigest.Vault
