import NoteDigest.Proofs.Note.FrontMatter
import NoteDigest.Proofs.Summary.Tracing
import NoteDigest.Proofs.Tag.Hierarchy
import NoteDigest.Proofs.Tag.Inline
import NoteDigest.Proofs.Vault.Memory

/-! # Offering — the tags of a vault as tags of a directive

    A vault tells the tags of its notes, from which those of a directive are chosen.
    Whatever has been asked of the vault before, and of whatever files, the metadata it
    remembers was scanned from the lines of some note (`scanned_after`), so each tag it
    tells has the shape of an inline tag (`hasShape_of_mem_tags`).

    That is more than a directive takes.  A tag that is told can be asked for exactly when
    it is authorable, and then the notes that bear it are selected
    (`offered_tag_in_directive`).  Any other tag, such as one that starts with a digit, is
    told all the same (`numbered_tag_in_directive`). -/

namespace NoteDigest.Vault

open Directive

variable {vault : Vault} {fs : Files} {ref : NoteRef} {refs : List NoteRef} {found : Metadata}
  {tags : List Tag} {tag : Tag}

/-! ## What is remembered was scanned -/

/-- **INVARIANT**: all metadata remembered is that of some lines. -/
def Scanned (vault : Vault) : Prop :=
  ∀ entry ∈ vault.memory, ∃ lines, Note.metadataOf lines = .ok entry.2.2

theorem scanned_ofText (root : Text) : (ofText root).Scanned :=
  List.forall_mem_nil _

/-- Metadata that is read is that of the lines read. -/
theorem exists_lines_of_readMetadata (h : vault.readMetadata fs ref = .ok found) :
    ∃ lines, Note.metadataOf lines = .ok found := by
  obtain ⟨lines, -, hread⟩ := exists_of_bind_ok h
  refine ⟨lines, ?_⟩
  cases hmetadata : Note.metadataOf lines with
  | error cause => rw [hmetadata] at hread; cases hread
  | ok metadata => rw [hmetadata] at hread; rw [Except.ok.inj hread]

/-- Metadata, remembered or read, is that of some lines. -/
theorem Scanned.metadata (h : vault.Scanned) (hfound : vault.metadata fs ref = .ok found) :
    ∃ lines, Note.metadataOf lines = .ok found := by
  obtain ⟨told, -, hfound⟩ := exists_of_bind_ok hfound
  split at hfound
  · rename_i known hknown
    obtain ⟨stamp, -, hremembered⟩ := Option.bind_eq_some_iff.mp hknown
    obtain rfl : known = found := Except.ok.inj hfound
    exact h _ (mem_memory_of_remembered? hremembered)
  · exact exists_lines_of_readMetadata hfound

/-- **ONE STEP**: what is remembered of one more note was scanned too. -/
theorem Scanned.remember (h : vault.Scanned) (fs : Files) (ref : NoteRef) :
    (vault.remember fs ref).Scanned := by
  rw [Vault.remember]
  split
  · rename_i stamp found hstamp hfound
    refine List.forall_mem_cons.mpr ⟨h.metadata hfound, ?_⟩
    exact fun entry hentry => h entry (List.mem_filter.mp hentry).1
  · exact h

theorem Scanned.rememberAll (h : vault.Scanned) (fs : Files) (refs : List NoteRef) :
    (vault.rememberAll fs refs).Scanned := by
  induction refs generalizing vault with
  | nil => exact h
  | cons ref rest ih => exact ih (h.remember fs ref)

/-- **EVERY REQUEST** keeps the invariant. -/
theorem Scanned.ask (h : vault.Scanned) (fs : Files) (request : Request) :
    (vault.ask fs request).2.Scanned := by
  have hmetadata : ∀ path, (vault.metadataAt fs path).2.Scanned := by
    intro path
    rw [metadataAt]
    split
    · exact h.remember fs _
    · exact h
  cases request with
  | notes => exact h
  | tags => exact h.rememberAll fs _
  | occurrences path => exact hmetadata path
  | optsOut path => exact hmetadata path
  | summary source layout => exact h.rememberAll fs _
  | expand text layout => exact h.rememberAll fs _

/-- The vault after some requests, each with the files as they were then. -/
def after (vault : Vault) (asked : List (Files × Request)) : Vault :=
  asked.foldl (fun vault moment => (vault.ask moment.1 moment.2).2) vault

/-- **ALL REQUESTS**, with any files, keep the invariant. -/
theorem Scanned.after (h : vault.Scanned) (asked : List (Files × Request)) :
    (vault.after asked).Scanned := by
  induction asked generalizing vault with
  | nil => exact h
  | cons moment rest ih => exact ih (h.ask moment.1 moment.2)

theorem scanned_after (root : Text) (asked : List (Files × Request)) :
    ((ofText root).after asked).Scanned :=
  (scanned_ofText root).after asked

/-! ## The tags that are told -/

/-- The note is listed, and its metadata can be had. -/
def Knows (vault : Vault) (fs : Files) (ref : NoteRef) (found : Metadata) : Prop :=
  ∃ refs, vault.notes fs = .ok refs ∧ ref ∈ refs ∧ vault.metadata fs ref = .ok found

theorem provider_metadata_eq_ok_iff :
    (vault.provider fs).metadata ref = .ok found ↔ vault.metadata fs ref = .ok found := by
  show (vault.metadata fs ref).mapError loadFault = .ok found ↔ _
  cases vault.metadata fs ref with
  | error fault => exact iff_of_false nofun nofun
  | ok metadata => simp [Except.mapError]

theorem mem_tagsOf {each : List Metadata} :
    tag ∈ tagsOf each ↔ ∃ metadata ∈ each, ∃ o ∈ metadata.occurrences, o.tag = tag := by
  rw [tagsOf, sortTags, List.mem_mergeSort, List.mem_eraseDups, List.mem_flatMap]
  simp only [List.mem_map]

/-- What is told is what the notes listed hold, where no metadata fails fatally. -/
theorem exists_each_of_tags (h : (vault.tags fs).1 = .ok tags) :
    ∃ refs each, vault.notes fs = .ok refs
      ∧ loadEach (vault.provider fs).metadata refs = .ok each ∧ tags = tagsOf each := by
  rw [tags_eq_bind] at h
  obtain ⟨refs, hrefs, h⟩ := exists_of_bind_ok h
  cases heach : loadEach (vault.provider fs).metadata refs with
  | error cause => rw [heach] at h; cases h
  | ok each =>
      rw [heach] at h
      exact ⟨refs, each, hrefs, heach, (Except.ok.inj h).symm⟩

/-- **THE TAGS TOLD** are those in the metadata that can be had. -/
theorem exists_of_mem_tags (h : (vault.tags fs).1 = .ok tags) (htag : tag ∈ tags) :
    ∃ ref found, vault.Knows fs ref found ∧ ∃ o ∈ found.occurrences, o.tag = tag := by
  obtain ⟨refs, each, hrefs, heach, rfl⟩ := exists_each_of_tags h
  obtain ⟨found, hfound, ho⟩ := mem_tagsOf.mp htag
  obtain ⟨ref, href, hload⟩ := exists_of_mem_loadEach heach hfound
  exact ⟨ref, found, ⟨refs, hrefs, href, provider_metadata_eq_ok_iff.mp hload⟩, ho⟩

/-- Each tag that is told has the shape of an inline tag. -/
theorem hasShape_of_mem_tags (hscanned : vault.Scanned) (h : (vault.tags fs).1 = .ok tags)
    (htag : tag ∈ tags) : tag.HasShape := by
  obtain ⟨ref, found, ⟨refs, -, -, hfound⟩, o, ho, rfl⟩ := exists_of_mem_tags h htag
  obtain ⟨lines, hlines⟩ := hscanned.metadata hfound
  rw [Note.occurrences_of_metadataOf hlines] at ho
  exact Tag.hasShape_of_mem_occurrencesIn ho

/-! ## The notes that are selected -/

/-- A query for a tag selects the notes that bear it. -/
theorem selects_of_bears {note : Note} (hin : note.optedOut = false)
    (hbears : ∃ o ∈ note.occurrences, o.tag = tag) :
    ({ anyOf := [tag] } : Query).selects note = true := by
  obtain ⟨o, ho, rfl⟩ := hbears
  exact Query.selects_one_iff.mpr ⟨hin, o, ho, Tag.covers_refl o.tag⟩

/-- The metadata that can be had makes the stubs of a vault. -/
theorem mem_stubs_of_knows {stubs : List Note} (hstubs : (vault.provider fs).stubs = .ok stubs)
    (hknows : vault.Knows fs ref found) : Note.stub ref found ∈ stubs := by
  obtain ⟨refs, hrefs, href, hfound⟩ := hknows
  obtain ⟨refs', hrefs', rfl⟩ := Provider.eq_filterMap_of_stubs hstubs
  obtain rfl : refs = refs' := Except.ok.inj (hrefs.symm.trans hrefs')
  refine List.mem_filterMap.mpr ⟨ref, Provider.mem_sort.mpr href, ?_⟩
  rw [Provider.stub?, provider_metadata_eq_ok_iff.mpr hfound]
  rfl

/-- Where the tags are told, the stubs can be had. -/
theorem stubs_of_tags (h : (vault.tags fs).1 = .ok tags) :
    ∃ stubs, (vault.provider fs).stubs = .ok stubs := by
  obtain ⟨refs, each, hrefs, heach, -⟩ := exists_each_of_tags h
  exact Provider.stubs_isOk_iff.mpr ⟨refs, hrefs, loadEach_isOk_iff.mp ⟨each, heach⟩⟩

/-- **WHAT IS OFFERED** by a vault, whatever it was asked before: the block that is written
    for one of its tags is the only one of its text.  It asks for this tag, and for nothing
    else, exactly when the tag is authorable, and then it selects, in any vault at any time,
    each note that bears the tag, unless its metadata cannot be had or it has opted out.  The
    block for any other tag asks for nothing. -/
theorem offered_tag_in_directive (root : Text) (asked : List (Files × Request)) (fs : Files) :
    ∀ tags, (((ofText root).after asked).tags fs).1 = .ok tags →
      (∃ stubs, (((ofText root).after asked).provider fs).stubs = .ok stubs)
        ∧ ∀ tag ∈ tags, ∃ block, blocks (render tag none) = [block]
          ∧ ((Query.ofSource block.body).anyOf = [tag] ↔ tag.Authorable)
          ∧ (tag.Authorable → Query.ofSource block.body = { anyOf := [tag] }
              ∧ ∀ (vault : Vault) (fs' : Files) (stubs : List Note),
                (vault.provider fs').stubs = .ok stubs →
                ∀ ref found, vault.Knows fs' ref found → found.optedOut = false →
                  (∃ o ∈ found.occurrences, o.tag = tag) →
                  Note.stub ref found ∈ (Query.ofSource block.body).select stubs)
          ∧ (¬ tag.Authorable → Query.ofSource block.body = {}) := by
  intro tags htags
  refine ⟨stubs_of_tags htags, fun tag htag => ?_⟩
  have hshape : tag.HasShape := hasShape_of_mem_tags (scanned_after root asked) htags htag
  refine ⟨rendered tag none, blocks_render hshape.oneLine, ?_, ?_, ?_⟩
  · by_cases hauthorable : tag.Authorable
    · rw [Tag.ofSource_of_authorable hshape hauthorable]
      exact iff_of_true rfl hauthorable
    · rw [Tag.ofSource_of_not_authorable hshape hauthorable]
      exact iff_of_false nofun hauthorable
  · intro hauthorable
    have hsource := Tag.ofSource_of_authorable hshape hauthorable
    refine ⟨hsource, ?_⟩
    intro vault fs' stubs hstubs ref found hknows hin hbears
    rw [hsource]
    exact List.mem_filter.mpr ⟨mem_stubs_of_knows hstubs hknows, selects_of_bears hin hbears⟩
  · exact Tag.ofSource_of_not_authorable hshape

/-! ## Two offers -/

/-- The tags told of a single occurrence. -/
theorem tags_of_single {line : Nat} {optedOut : Bool} (hnotes : vault.notes fs = .ok [ref])
    (hfound : vault.metadata fs ref = .ok ⟨[Occurrence.on line tag], optedOut⟩) :
    (vault.tags fs).1 = .ok [tag] := by
  rw [tags_of_notes hnotes, loadEach, provider_metadata_eq_ok_iff.mpr hfound]
  show Except.ok (tagsOf [⟨[Occurrence.on line tag], optedOut⟩]) = _
  exact congrArg Except.ok (List.mergeSort_singleton tag)

/-- A directory with one note, `a`. -/
def soleNote (text : String) : Files :=
  folder "vault".toList [("a.md".toList, Text.toUtf8 text.toList)]

/-- The reference to the note. -/
def soleRef : NoteRef :=
  ⟨"a.md".toList, ['a']⟩

/-- What is known of the note while it bears a tag. -/
def taggedMetadata : Metadata :=
  ⟨[Occurrence.on 0 "#é/1b".toList], false⟩

/-- The vault that remembers the note with its tag. -/
def rememberingVault : Vault :=
  ⟨Path.parse "vault".toList, [(soleRef.path, .tick 0, taggedMetadata)]⟩

theorem after_tagged :
    (ofText "vault".toList).after [(soleNote "#é/1b x\n", .tags)] = rememberingVault := by
  have hnotes : (ofText "vault".toList).notes (soleNote "#é/1b x\n") = .ok [soleRef] :=
    notes_of_ascending rfl (by decide +kernel) (by decide +kernel)
      (show List.Pairwise _ _ from by decide)
  have hrefs : ((ofText "vault".toList).provider (soleNote "#é/1b x\n")).refs = .ok [soleRef] :=
    hnotes
  have hprobes : ((ofText "vault".toList).provider (soleNote "#é/1b x\n")).probes = [soleRef] := by
    rw [Provider.probes, hrefs]
    show triedBy _ (NoteRef.sort [soleRef]) = _
    rw [NoteRef.sort, List.mergeSort_singleton]
    decide +kernel
  show (ofText "vault".toList).rememberAll _ _ = _
  rw [hprobes]
  decide +kernel

theorem notes_remembering : rememberingVault.notes (soleNote "x\n") = .ok [soleRef] :=
  notes_of_ascending rfl (by decide +kernel) (by decide +kernel)
    (show List.Pairwise _ _ from by decide)

/-- The note has lost its tag and kept its time, so it is still known with the tag. -/
theorem metadata_remembering :
    rememberingVault.metadata (soleNote "x\n") soleRef = .ok taggedMetadata := by
  decide +kernel

/-- **A TAG THAT IS REMEMBERED** only is offered too, and the block for it selects the note as
    the vault remembers it. -/
theorem remembered_tag_in_directive :
    (((ofText "vault".toList).after [(soleNote "#é/1b x\n", .tags)]).tags (soleNote "x\n")).1
        = .ok ["#é/1b".toList]
      ∧ Tag.Authorable "#é/1b".toList
      ∧ ∃ block stubs, blocks (render "#é/1b".toList none) = [block]
        ∧ Query.ofSource block.body = { anyOf := ["#é/1b".toList] }
        ∧ (rememberingVault.provider (soleNote "x\n")).stubs = .ok stubs
        ∧ Note.stub soleRef taggedMetadata ∈ (Query.ofSource block.body).select stubs := by
  have htags : (((ofText "vault".toList).after [(soleNote "#é/1b x\n", .tags)]).tags
      (soleNote "x\n")).1 = .ok ["#é/1b".toList] := by
    rw [after_tagged]
    exact tags_of_single notes_remembering metadata_remembering
  have hauthorable : Tag.Authorable "#é/1b".toList := by
    refine ⟨'é', ['/', '1', 'b'], rfl, by decide, ?_⟩
    refine List.forall_mem_cons.mpr ⟨by decide, List.forall_mem_cons.mpr ⟨by decide, ?_⟩⟩
    exact List.forall_mem_singleton.mpr (by decide)
  obtain ⟨⟨stubs, hstubs⟩, hoffered⟩ := offered_tag_in_directive "vault".toList
    [(soleNote "#é/1b x\n", .tags)] (soleNote "x\n") _ htags
  obtain ⟨block, hblock, -, hasks, -⟩ := hoffered _ (List.mem_singleton.mpr rfl)
  obtain ⟨hsource, hselects⟩ := hasks hauthorable
  rw [after_tagged] at hstubs
  refine ⟨htags, hauthorable, block, stubs, hblock, hsource, hstubs, ?_⟩
  have hknows : rememberingVault.Knows (soleNote "x\n") soleRef taggedMetadata :=
    ⟨[soleRef], notes_remembering, List.mem_singleton.mpr rfl, metadata_remembering⟩
  exact hselects rememberingVault (soleNote "x\n") stubs hstubs soleRef taggedMetadata hknows rfl
    ⟨_, List.mem_singleton.mpr rfl, rfl⟩

/-- **THE EXCEPTION**: a tag that starts with a digit is offered, and the block for it asks for
    nothing, so it is not so that every tag that is told works in a directive. -/
theorem numbered_tag_in_directive :
    (((ofText "vault".toList).tags (soleNote "#1a x\n")).1 = .ok ["#1a".toList]
      ∧ blocks (render "#1a".toList none) = [⟨"tags: #1a".toList, 0, 2⟩]
      ∧ Query.ofSource "tags: #1a".toList = {})
    ∧ ¬ ∀ (root : Text) (asked : List (Files × Request)) (fs : Files) (tags : List Tag),
        (((ofText root).after asked).tags fs).1 = .ok tags → ∀ tag ∈ tags,
          ∃ block, blocks (render tag none) = [block]
            ∧ (Query.ofSource block.body).anyOf = [tag] := by
  have hnotes : (ofText "vault".toList).notes (soleNote "#1a x\n") = .ok [soleRef] :=
    notes_of_ascending rfl (by decide +kernel) (by decide +kernel)
      (show List.Pairwise _ _ from by decide)
  have hfound : (ofText "vault".toList).metadata (soleNote "#1a x\n") soleRef
      = .ok ⟨[Occurrence.on 0 "#1a".toList], false⟩ := by decide +kernel
  have htags := tags_of_single hnotes hfound
  have hblock : blocks (render "#1a".toList none) = [⟨"tags: #1a".toList, 0, 2⟩] := by
    decide +kernel
  have hsource : Query.ofSource "tags: #1a".toList = {} := by decide +kernel
  refine ⟨⟨htags, hblock, hsource⟩, fun hall => ?_⟩
  obtain ⟨block, hsole, hasks⟩ := hall "vault".toList [] (soleNote "#1a x\n") _ htags _
    (List.mem_singleton.mpr rfl)
  obtain rfl : _ = block := List.singleton_inj.mp (hblock.symm.trans hsole)
  rw [hsource] at hasks
  cases hasks

end NoteDigest.Vault
