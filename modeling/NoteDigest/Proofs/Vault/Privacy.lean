import NoteDigest.Proofs.Files.Alike
import NoteDigest.Proofs.Summary.Agreement
import NoteDigest.Proofs.Vault.Resilience

/-! # Privacy — what a note that opts out keeps to itself

    A note opts out of summaries by a property in its front matter.  What stands behind the
    front matter is then its own: be it changed in any way, no summary and no expanded note
    is any different (`body_of_opted_out`).  For the list of notes does not depend on what
    files hold (`notes_alike`), other notes are read as before (`lines_alike`), and the note
    itself is hidden whatever its body holds (`hides_of_reads`). -/

namespace NoteDigest

open NoteDigest.Path Files

/-- The file at a place holds a text with these lines. -/
def Files.Reads (fs : Files) (place : Place) (lines : List Text) : Prop :=
  ∃ bytes stamp, fs.get? place = some (.file bytes stamp)
    ∧ (Text.ofUtf8? bytes).map (fun text => Text.lines (Text.unixNewlines text)) = some lines

theorem Files.Reads.hasFile {fs : Files} {place : Place} {lines : List Text}
    (h : fs.Reads place lines) : fs.HasFile place := by
  obtain ⟨bytes, stamp, hfile, -⟩ := h
  exact ⟨bytes, stamp, hfile⟩

/-- Two trees are the same but for what is at one place. -/
structure Files.SameBut (fs fs' : Files) (place : Place) : Prop where
  here : fs'.here = fs.here
  limits : fs'.limits = fs.limits
  entries : ∀ other, other ≠ place → fs'.get? other = fs.get? other

/-- Trees that are the same but for the content of one file are alike. -/
theorem Files.SameBut.alike {fs fs' : Files} {place : Place} (h : fs.SameBut fs' place)
    (hfile : fs.HasFile place) (hfile' : fs'.HasFile place) : fs.Alike fs' where
  here := h.here
  limits := h.limits
  entries := by
    intro other
    by_cases hplace : other = place
    · rw [hplace]
      exact .inr ⟨hfile, hfile'⟩
    · exact .inl (h.entries other hplace)

namespace Vault

variable {vault : Vault} {fs fs' : Files} {top place : Place} {names : List Name}
  {ref : NoteRef} {refs : List NoteRef} {lines lines' : List Text}

/-! ## The list -/

theorem Rooted.alike (h : vault.Rooted fs top) (halike : fs.Alike fs') :
    vault.Rooted fs' top := by
  obtain ⟨n, hn, hleads⟩ := h.leads
  refine ⟨⟨n, hn, ?_⟩, (halike.hasDirectory_eq top).trans h.directory⟩
  rw [halike.startOf_eq]
  exact halike.leads_iff.mpr hleads

/-- **ONE WAY DOWN** gives the same reference in both trees. -/
theorem Rooted.refOf?_alike (h : vault.Rooted fs top) (hfs : fs.WellFormed)
    (hfs' : fs'.WellFormed) (halike : fs.Alike fs') (hnames : ∀ name ∈ names, IsName name) :
    vault.refOf? fs' names = vault.refOf? fs names := by
  by_cases hfile : fs.isFile (vault.pathBelow names) = true
  · obtain ⟨place, bytes, stamp, hfound⟩ := isFile_iff.mp hfile
    obtain ⟨bytes', stamp', hfound'⟩ := halike.locate_file hfound
    rw [h.refOf?_eq hfs hnames hfound, (h.alike halike).refOf?_eq hfs' hnames hfound']
  · rw [refOf?, refOf?, halike.isFile_eq, if_neg hfile, if_neg hfile]

/-- References that are listed are told apart by their paths. -/
theorem Rooted.eq_of_path_eq (h : vault.Rooted fs top) (hfs : fs.WellFormed) {a b : NoteRef}
    (ha : a ∈ vault.refsOf fs (ways fs top)) (hb : b ∈ vault.refsOf fs (ways fs top))
    (hpath : a.path = b.path) : a = b := by
  obtain ⟨place, rfl, -, hholds⟩ := h.mem_refsOf hfs (fun _ => mem_descendants_of_mem_ways) ha
  obtain ⟨place', rfl, -, hholds'⟩ := h.mem_refsOf hfs (fun _ => mem_descendants_of_mem_ways) hb
  have hsame := hholds.resolved
  rw [hpath, hholds'.resolved] at hsame
  rw [Except.ok.inj hsame]

theorem perm_ways (halike : fs.Alike fs') (top : Place) : (ways fs' top).Perm (ways fs top) :=
  (halike.perm_descendants top).filter hasNoteName

/-- **THE REFERENCES** are the same: they come in the order of their paths, so the order of
    the ways down does not matter. -/
theorem Rooted.refsOf_alike (h : vault.Rooted fs top) (hfs : fs.WellFormed)
    (hfs' : fs'.WellFormed) (halike : fs.Alike fs') :
    vault.refsOf fs' (ways fs' top) = vault.refsOf fs (ways fs top) := by
  have hrefs : (ways fs' top).filterMap (vault.refOf? fs')
      = (ways fs' top).filterMap (vault.refOf? fs) := by
    refine List.filterMap_congr fun names hnames => ?_
    have hproper := isName_of_mem_descendants hfs' (mem_descendants_of_mem_ways hnames)
    exact h.refOf?_alike hfs hfs' halike hproper
  refine Eq.symm (Text.eq_of_perm_of_ascending NoteRef.path ?_ ?_ ?_ ?_)
  · exact fun a ha b hb => h.eq_of_path_eq hfs ha hb
  · rw [refsOf_eq, refsOf_eq, hrefs]
    have hperm := (perm_ways halike top).filterMap (vault.refOf? fs)
    exact (List.mergeSort_perm _ _).trans (hperm.symm.trans (List.mergeSort_perm _ _).symm)
  · rw [refsOf_eq]
    exact Text.ascending_mergeSort NoteRef.path _
  · rw [refsOf_eq]
    exact Text.ascending_mergeSort NoteRef.path _

theorem nestsTooDeep_alike (halike : fs.Alike fs') (top : Place) :
    nestsTooDeep fs' top = nestsTooDeep fs top := by
  rw [nestsTooDeep, nestsTooDeep, halike.limits, Bool.eq_iff_iff, List.any_eq_true,
    List.any_eq_true]
  simp only [isFolder, halike.hasDirectory_eq, (halike.perm_descendants top).mem_iff]

theorem anyOverlong_alike (halike : fs.Alike fs') (vault : Vault) (top : Place) :
    vault.anyOverlong fs' top = vault.anyOverlong fs top := by
  rw [anyOverlong, anyOverlong, Bool.eq_iff_iff, List.any_eq_true, List.any_eq_true]
  simp only [isFolder, halike.hasDirectory_eq, halike.isOverlong_eq,
    (halike.perm_descendants top).mem_iff]

/-- **THE LIST OF NOTES** does not depend on what files hold. -/
theorem notes_alike (hfs : fs.WellFormed) (hfs' : fs'.WellFormed) (halike : fs.Alike fs')
    (vault : Vault) : vault.notes fs' = vault.notes fs := by
  by_cases hroot : ∃ top, fs.locate .follow vault.root = .ok ⟨top, some .directory⟩
  · obtain ⟨top, hfound⟩ := hroot
    rw [notes_of_locate hfound, notes_of_locate (halike.locate_directory hfound),
      nestsTooDeep_alike halike, anyOverlong_alike halike,
      (rooted_of_locate hfound).refsOf_alike hfs hfs' halike]
  · have hroot' : ∀ top, fs'.locate .follow vault.root ≠ .ok ⟨top, some .directory⟩ :=
      fun top hfound => hroot ⟨top, halike.symm.locate_directory hfound⟩
    rw [notes_of_no_directory (not_exists.mp hroot), notes_of_no_directory hroot', isOutOfReach,
      isOutOfReach, halike.isOverlong_eq]

/-! ## The notes -/

/-- A listed note has its file at the same place in both trees. -/
theorem holds_alike (hfs : fs.WellFormed) (hfs' : fs'.WellFormed) (halike : fs.Alike fs')
    (h : vault.notes fs = .ok refs) (href : ref ∈ refs) :
    ∃ place, vault.Holds fs ref place ∧ vault.Holds fs' ref place := by
  obtain ⟨top, hfound, rfl⟩ := listed_of_mem_notes h href
  have hroot := rooted_of_locate hfound
  obtain ⟨place, rfl, hbelow, hholds⟩ := hroot.mem_refsOf hfs
    (fun _ => mem_descendants_of_mem_ways) href
  have hplain' : fs'.Plain place := halike.plain_iff.mpr hholds.plain
  obtain ⟨bytes, stamp, hfile⟩ := hholds.file
  have hsome' : (fs'.get? place).isSome = true := by
    rw [halike.isSome_eq, hfile]
    rfl
  refine ⟨place, hholds, (hroot.alike halike).resolve_refAt hfs' hplain' hsome' hbelow, hplain', ?_⟩
  rcases halike.entries place with hsame | ⟨-, hfile'⟩
  · exact ⟨bytes, stamp, hsame.trans hfile⟩
  · exact hfile'

/-- A note whose file is the same is read as before. -/
theorem lines_alike (halike : fs.Alike fs') (hholds : vault.Holds fs ref place)
    (hholds' : vault.Holds fs' ref place) (hsame : fs'.get? place = fs.get? place) :
    vault.lines fs' ref = vault.lines fs ref := by
  rw [lines_eq hholds.resolved, lines_eq hholds'.resolved, Files.read, Files.read,
    halike.stat_plain_eq hholds.plain hsame]

/-- **A NOTE THAT OPTS OUT IS HIDDEN**, also when it is too far down to be read. -/
theorem hides_of_reads (hmemory : vault.memory = []) (hholds : vault.Holds fs ref place)
    (hreads : fs.Reads place lines) (hout : Note.OptsOut lines) :
    (vault.provider fs).Hides ref := by
  obtain ⟨bytes, stamp, hfile, hdecoded⟩ := hreads
  obtain ⟨text, htext, rfl⟩ := Option.map_eq_some_iff.mp hdecoded
  rw [Provider.Hides, provider_metadata hmemory]
  rcases lines_of_holds hholds hfile with hlines | hlong
  · right
    refine ⟨⟨Note.occurrencesIn (Text.lines (Text.unixNewlines text)), true⟩, ?_, rfl⟩
    rw [hlines, linesOf, htext]
    simp only [hout.metadataOf_eq]
  · left
    rw [hlong]
    rfl

/-- **THE BODY OF A NOTE THAT OPTS OUT IS NOT SEEN**: when two trees are the same but for a
    file that holds other lines behind the same front matter, by which it opts out, every
    summary and every expanded note is the same, and fails for the same reason. -/
theorem body_of_opted_out (hfs : fs.WellFormed) (hfs' : fs'.WellFormed)
    (hsame : fs.SameBut fs' place) (hlines : fs.Reads place lines)
    (hlines' : fs'.Reads place lines')
    (hfront : lines'.take (Note.bodyStart lines) = lines.take (Note.bodyStart lines))
    (hout : Note.OptsOut lines) (root : Text) (layout : Layout) :
    (∀ source, ((ofText root).summary fs' source layout).1
        = ((ofText root).summary fs source layout).1)
      ∧ ∀ text, ((ofText root).expand fs' text layout).1
        = ((ofText root).expand fs text layout).1 := by
  have hmemory : (ofText root).memory = [] := rfl
  have halike := hsame.alike hlines.hasFile hlines'.hasFile
  have hagrees : ((ofText root).provider fs).Agrees ((ofText root).provider fs') := by
    refine ⟨notes_alike hfs hfs' halike _, fun refs hrefs ref href => ?_⟩
    obtain ⟨other, hholds, hholds'⟩ := holds_alike hfs hfs' halike hrefs href
    -- the changed file is that of a hidden note, and every other note is read as before
    by_cases hother : other = place
    · subst hother
      exact .inr ⟨hides_of_reads hmemory hholds hlines hout,
        hides_of_reads hmemory hholds' hlines' (hout.of_same_front hfront)⟩
    · left
      have hread := lines_alike halike hholds hholds' (hsame.entries other hother)
      rw [provider_metadata hmemory, provider_metadata hmemory, provider_lines, provider_lines,
        hread]
      exact ⟨rfl, rfl⟩
  constructor
  · intro source
    exact congrArg Run.result (hagrees.summary_eq source layout)
  · intro text
    exact congrArg Run.result (hagrees.expand_eq text layout)

/-- A note that opts out, with some body, and a note that does not. -/
def diary (body : Text) : Files :=
  folder "vault".toList
    [("a.md".toList, Text.toUtf8 ("---\nexclude-tag-summary: true\n---\n".toList ++ body)),
     ("b.md".toList, Text.toUtf8 "b #t".toList)]

/-- The lines of the note that opts out. -/
def diaryLines (body : List Text) : List Text :=
  ["---".toList, "exclude-tag-summary: true".toList, "---".toList] ++ body

/-- A body with another delimiter, a fence and the tag is not seen: only `b` comes out. -/
theorem diary_markdown :
    ((ofText "vault".toList).summary (diary "---\n~~~\n#t x".toList) "tags: #t".toList
          ⟨false, false⟩).1.map Summary.markdown = .ok "b #t\n\n\n".toList := by
  have hfs : (diary []).WellFormed := ⟨by decide +kernel, by decide, plain_nil _, rfl⟩
  have hfs' : (diary "---\n~~~\n#t x".toList).WellFormed :=
    ⟨by decide +kernel, by decide, plain_nil _, rfl⟩
  have hsame : (diary []).SameBut (diary "---\n~~~\n#t x".toList)
      ["vault".toList, "a.md".toList] := by
    refine ⟨rfl, rfl, fun other hother => ?_⟩
    rw [get?, get?]
    simp only [diary, folder, List.map_cons, List.lookup_cons, beq_false_of_ne hother]
  have hlines : (diary []).Reads ["vault".toList, "a.md".toList] (diaryLines [[]]) :=
    ⟨_, _, rfl, by decide +kernel⟩
  have hlines' : (diary "---\n~~~\n#t x".toList).Reads ["vault".toList, "a.md".toList]
      (diaryLines ["---".toList, "~~~".toList, "#t x".toList]) :=
    ⟨_, _, rfl, by decide +kernel⟩
  rw [(body_of_opted_out hfs hfs' hsame hlines hlines' (by decide +kernel) (by decide +kernel)
    "vault".toList ⟨false, false⟩).1]
  -- without a body, the note that opts out is read and left out
  have hnotes : (ofText "vault".toList).notes (diary [])
      = .ok [⟨"a.md".toList, ['a']⟩, ⟨"b.md".toList, ['b']⟩] :=
    notes_of_ascending rfl (by decide +kernel) (by decide +kernel)
      (show List.Pairwise _ _ from by decide)
  have hreadable : (ofText "vault".toList).readableNotes (diary [])
      = [Note.ofLines ⟨"a.md".toList, ['a']⟩ (diaryLines [[]]),
         Note.ofLines ⟨"b.md".toList, ['b']⟩ ["b #t".toList]] := by
    rw [readableNotes_of_notes hnotes]
    decide +kernel
  have hquery : Query.ofSource "tags: #t".toList = { anyOf := ["#t".toList] } := by
    decide +kernel
  rw [summary_eq rfl hfs ⟨_, hnotes, by decide +kernel⟩, hreadable]
  show Except.ok (Summary.markdown (Summary.ofNotes _ _ _)) = _
  rw [markdown_ofNotes, hquery, summarize, if_neg (by decide), Fragment.aggregate, Fragment.sort,
    List.mergeSort_of_pairwise (by decide +kernel)]
  decide +kernel

end Vault
end NoteDigest
