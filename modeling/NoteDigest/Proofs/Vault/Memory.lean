import NoteDigest.Proofs.Files.Clearing
import NoteDigest.Proofs.Summary.Agreement
import NoteDigest.Proofs.Summary.Expansion
import NoteDigest.Proofs.Vault.Resilience

/-! # Memory — what a vault remembers never shows

    A vault keeps the metadata of a note under the path of the note, with the time its file
    was written.  It is used again as long as the file bears that time, whatever happens to
    the files in between.

    The invariant is `Recalls`: what is remembered under a path was read from bytes that
    were once seen, with that time, at the place the path names.  When bytes at one place
    are told apart by their times (`Records`), it is what would be read now
    (`metadata_eq_readMetadata_of_recalls`), and a vault answers as one that remembers
    nothing (`ask_fresh`).

    One thing is asked of the path: that it stands for the place it names (`Straight`).  The
    paths of listed notes do (`straight_of_mem_notes`), and so does what a path that a user
    gives is taken for, unless a link turns in a circle on the way
    (`refersStraight_of_clear`). -/

namespace NoteDigest

open NoteDigest.Path Files

/-- A file with these bytes and this stamp stands at a plain place. -/
def Files.Bears (fs : Files) (place : Place) (bytes : ByteArray) (stamp : Stamp) : Prop :=
  fs.Plain place ∧ fs.get? place = some (.file bytes stamp)

/-- The files in the tree, with what they bear. -/
def Files.contents (fs : Files) : List (Place × ByteArray × Stamp) :=
  fs.entries.filterMap fun entry =>
    match entry.2 with
    | .file bytes stamp => some (entry.1, bytes, stamp)
    | _ => none

theorem Files.Bears.mem_contents {fs : Files} {place : Place} {bytes : ByteArray} {stamp : Stamp}
    (h : fs.Bears place bytes stamp) : (place, bytes, stamp) ∈ fs.contents := by
  have hne : place ≠ [] := ne_nil_of_not_hasDirectory (hasDirectory_of_file h.2)
  exact List.mem_filterMap.mpr ⟨_, mem_entries_of_get? hne h.2, rfl⟩

/-- What files have borne so far: what the tree holds now is among it, and the bytes that
    were at one place are told apart by their stamps. -/
structure Records (seen : Place → ByteArray → Stamp → Prop) (fs : Files) : Prop where
  present : ∀ {place bytes stamp}, fs.Bears place bytes stamp → seen place bytes stamp
  apart : ∀ {place bytes bytes' stamp}, seen place bytes stamp → seen place bytes' stamp →
    bytes = bytes'

theorem Files.locate_of_stat {fs : Files} {path : Path} {entry : Entry}
    (h : fs.stat path = .ok entry) : ∃ place, fs.locate .follow path = .ok ⟨place, some entry⟩ := by
  rw [stat] at h
  split at h
  · rename_i place found hfound
    rw [← Except.ok.inj h]
    exact ⟨place, hfound⟩
  · cases h
  · cases h

namespace Vault

variable {vault : Vault} {fs : Files} {top place : Place} {ref other : NoteRef}
  {refs : List NoteRef} {seen seen' : Place → ByteArray → Stamp → Prop} {stamp : Stamp}

/-- The vault with nothing remembered. -/
def fresh (vault : Vault) : Vault :=
  { root := vault.root }

/-! ## Straight paths -/

/-- A path stands for the place that its names lead to below the root, as they are. -/
def Straight (vault : Vault) (fs : Files) (top : Place) (path : Text) : Prop :=
  ∃ names, parse path = ⟨false, names⟩ ∧ vault.resolve fs path = .ok (top ++ names)

theorem resolve_eq_bind (hroot : vault.rootPlace fs = .ok top) (path : Text) :
    vault.resolve fs path = (fs.placeOf ((toPlace top).join (parse path))).bind fun place =>
      if top.isPrefixOf place then .ok place else .error (.outside path) := by
  rw [resolve, hroot]
  rfl

theorem placeOf_of_resolve {path : Text} (hroot : vault.rootPlace fs = .ok top)
    (h : vault.resolve fs path = .ok place) :
    fs.placeOf ((toPlace top).join (parse path)) = .ok place ∧ top <+: place := by
  rw [resolve_eq_bind hroot] at h
  obtain ⟨found, hfound, h⟩ := exists_of_bind_ok h
  split at h
  · rename_i hbelow
    obtain rfl : found = place := Except.ok.inj h
    exact ⟨hfound, List.isPrefixOf_iff_prefix.mp hbelow⟩
  · cases h

/-- The path written from a place that stands for itself is straight. -/
theorem straight_refAt {names : List Name} (hroot : vault.rootPlace fs = .ok top)
    (hnames : ∀ name ∈ names, IsName name)
    (hplace : fs.placeOf (toPlace (top ++ names)) = .ok (top ++ names)) :
    vault.Straight fs top (refAt top (top ++ names)).path := by
  have hparse : parse (refAt top (top ++ names)).path = ⟨false, names⟩ := by
    rw [refAt, List.drop_left, parse_namesText hnames]
  refine ⟨names, hparse, ?_⟩
  rw [resolve_eq_bind hroot, hparse]
  show (fs.placeOf (toPlace (top ++ names))).bind _ = _
  rw [hplace]
  exact if_pos (by simp)

/-- **LISTED NOTES** have straight paths. -/
theorem straight_of_mem_notes (hfs : fs.WellFormed) (hroot : vault.rootPlace fs = .ok top)
    (h : vault.notes fs = .ok refs) (href : ref ∈ refs) : vault.Straight fs top ref.path := by
  obtain ⟨top', hfound, rfl⟩ := listed_of_mem_notes h href
  have hrooted := rooted_of_locate hfound
  obtain rfl : top' = top := Except.ok.inj ((hrooted.rootPlace hfs).symm.trans hroot)
  obtain ⟨place, rfl, ⟨names, rfl⟩, hholds⟩ := hrooted.mem_refsOf hfs
    (fun _ => mem_descendants_of_mem_ways) href
  obtain ⟨bytes, stamp, hfile⟩ := hholds.file
  have hplace := Option.isSome_of_eq_some hfile
  have hnames : ∀ name ∈ names, IsName name :=
    fun name hname => hfs.isName hplace name (List.mem_append_right _ hname)
  exact straight_refAt hroot hnames (placeOf_of_leads hfs hholds.plain.leads (Nat.zero_le _) hplace)

/-- A stamp is told of a file only. -/
theorem stat_of_stampOf (hresolved : vault.resolve fs ref.path = .ok place)
    (hstamp : vault.stampOf fs ref = .ok (some stamp)) :
    ∃ bytes, fs.stat (toPlace place) = .ok (.file bytes stamp) := by
  rw [stampOf, hresolved] at hstamp
  cases hstat : fs.stat (toPlace place) with
  | error cause => simp [bind, Except.bind, hstat] at hstamp
  | ok entry =>
      cases entry with
      | directory => simp [bind, Except.bind, hstat, pure, Except.pure] at hstamp
      | link target => simp [bind, Except.bind, hstat, pure, Except.pure] at hstamp
      | file bytes stamp' =>
          obtain rfl : stamp' = stamp := by
            simpa [bind, Except.bind, hstat, pure, Except.pure] using hstamp
          exact ⟨bytes, rfl⟩

/-- **A STAMP IS TOLD** of a straight path only for a file at the place it stands for. -/
theorem bears_of_stampOf (hfs : fs.WellFormed) (hroot : vault.rootPlace fs = .ok top)
    (hstraight : vault.Straight fs top ref.path)
    (hstamp : vault.stampOf fs ref = .ok (some stamp)) :
    ∃ names bytes, parse ref.path = ⟨false, names⟩ ∧ fs.Bears (top ++ names) bytes stamp
      ∧ vault.lines fs ref = linesOf ref.path bytes := by
  obtain ⟨names, hparse, hresolved⟩ := hstraight
  obtain ⟨bytes, hstat⟩ := stat_of_stampOf hresolved hstamp
  -- what the names lead to is what the path stands for, so they lead straight there
  obtain ⟨goal, hfound⟩ := locate_of_stat hstat
  obtain ⟨n, hn, hleads, hentry⟩ := isGoal_of_locate hfound
  have hplace : fs.placeOf (toPlace (top ++ names)) = .ok goal :=
    placeOf_of_leads hfs hleads hn (Option.isSome_of_eq_some hentry.symm)
  have hplace' := (placeOf_of_resolve hroot hresolved).1
  rw [hparse] at hplace'
  obtain rfl : goal = top ++ names := Except.ok.inj (hplace.symm.trans hplace')
  refine ⟨names, bytes, hparse, ⟨hleads.plain (plain_nil fs), hentry.symm⟩, ?_⟩
  rw [lines_eq hresolved, Files.read, hstat]
  rfl

/-! ## What is remembered -/

/-- **INVARIANT**: what is remembered under a path was read from bytes that were seen, with
    the stamp that is remembered, at the place the path names. -/
def Recalls (vault : Vault) (top : Place) (seen : Place → ByteArray → Stamp → Prop) : Prop :=
  ∀ entry ∈ vault.memory, ∃ names bytes lines, parse entry.1 = ⟨false, names⟩
    ∧ seen (top ++ names) bytes entry.2.1 ∧ linesOf entry.1 bytes = .ok lines
    ∧ Note.metadataOf lines = .ok entry.2.2

theorem recalls_of_memory_eq_nil (h : vault.memory = []) : vault.Recalls top seen := by
  intro entry hentry
  rw [h] at hentry
  cases hentry

theorem Recalls.mono (h : vault.Recalls top seen)
    (hseen : ∀ place bytes stamp, seen place bytes stamp → seen' place bytes stamp) :
    vault.Recalls top seen' := by
  intro entry hentry
  obtain ⟨names, bytes, lines, hparse, hbytes, hread⟩ := h entry hentry
  exact ⟨names, bytes, lines, hparse, hseen _ _ _ hbytes, hread⟩

theorem mem_memory_of_remembered? {path : Text} {found : Metadata}
    (h : vault.remembered? path stamp = some found) : (path, stamp, found) ∈ vault.memory := by
  rw [remembered?] at h
  split at h
  · rename_i known found' hlookup
    split at h
    · rename_i hknown
      obtain ⟨before, after, hmemory, -⟩ := List.lookup_eq_some_iff.mp hlookup
      rw [hmemory, ← hknown, ← Option.some.inj h]
      exact List.mem_append_right before List.mem_cons_self
    · cases h
  · cases h

/-- Metadata is read from the lines of the bytes that are read. -/
theorem readMetadata_eq_ok_iff {bytes : ByteArray} {found : Metadata}
    (hlines : vault.lines fs ref = linesOf ref.path bytes) :
    vault.readMetadata fs ref = .ok found
      ↔ ∃ lines, linesOf ref.path bytes = .ok lines ∧ Note.metadataOf lines = .ok found := by
  have hread : vault.readMetadata fs ref = (linesOf ref.path bytes).bind fun lines =>
      (Note.metadataOf lines).mapError Fault.property := by
    rw [readMetadata, hlines]
    rfl
  rw [hread]
  cases linesOf ref.path bytes with
  | error fault => simp [Except.bind]
  | ok lines =>
      cases hmetadata : Note.metadataOf lines with
      | error cause => simp [Except.bind, Except.mapError, hmetadata]
      | ok metadata => simp [Except.bind, Except.mapError, hmetadata]

/-- Metadata is what would be read, if what is remembered with the stamp of the file is. -/
theorem metadata_eq_of_remembered
    (h : ∀ stamp found, vault.stampOf fs ref = .ok (some stamp) →
      vault.remembered? ref.path stamp = some found → vault.readMetadata fs ref = .ok found) :
    vault.metadata fs ref = vault.readMetadata fs ref := by
  rw [← show vault.fresh.metadata fs ref = vault.readMetadata fs ref from
    metadata_eq_readMetadata rfl fs ref]
  have hstamp' : vault.fresh.stampOf fs ref = vault.stampOf fs ref := rfl
  rw [metadata, metadata, hstamp']
  cases hstamp : vault.stampOf fs ref with
  | error fault => rfl
  | ok told =>
      cases told with
      | none => rfl
      | some stamp =>
          have hforgotten : vault.fresh.remembered? ref.path stamp = none := rfl
          simp only [bind, Except.bind, Option.bind, hforgotten]
          cases hfound : vault.remembered? ref.path stamp with
          | none => rfl
          | some found => exact (h stamp found hstamp hfound).symm

/-- The path of a note is straight, if a file is behind it. -/
def IsStraight (vault : Vault) (fs : Files) (top : Place) (ref : NoteRef) : Prop :=
  ∀ stamp, vault.stampOf fs ref = .ok (some stamp) → vault.Straight fs top ref.path

/-- **WHAT IS REMEMBERED IS WHAT WOULD BE READ**, for a note with a straight path. -/
theorem metadata_eq_readMetadata_of_recalls (hfs : fs.WellFormed)
    (hroot : vault.rootPlace fs = .ok top) (hrecords : Records seen fs)
    (hrecalls : vault.Recalls top seen) (hstraight : vault.IsStraight fs top ref) :
    vault.metadata fs ref = vault.readMetadata fs ref := by
  refine metadata_eq_of_remembered fun stamp found hstamp hfound => ?_
  obtain ⟨names, bytes, hparse, hbears, hlines⟩ :=
    bears_of_stampOf hfs hroot (hstraight stamp hstamp) hstamp
  obtain ⟨names', bytes', lines, hparse', hseen, hdecoded, hread⟩ :=
    hrecalls _ (mem_memory_of_remembered? hfound)
  obtain rfl : names' = names := congrArg Path.names (hparse'.symm.trans hparse)
  obtain rfl : bytes' = bytes := hrecords.apart hseen (hrecords.present hbears)
  exact (readMetadata_eq_ok_iff hlines).mpr ⟨lines, hdecoded, hread⟩

/-- **ONE STEP**: what is remembered of a note with a straight path keeps the invariant. -/
theorem Recalls.remember (hfs : fs.WellFormed) (hroot : vault.rootPlace fs = .ok top)
    (hrecords : Records seen fs) (hrecalls : vault.Recalls top seen)
    (hstraight : vault.IsStraight fs top ref) : (vault.remember fs ref).Recalls top seen := by
  rw [Vault.remember]
  split
  · rename_i stamp found hstamp hfound
    intro entry hentry
    rcases List.mem_cons.mp hentry with rfl | hentry
    · rw [metadata_eq_readMetadata_of_recalls hfs hroot hrecords hrecalls hstraight] at hfound
      obtain ⟨names, bytes, hparse, hbears, hlines⟩ :=
        bears_of_stampOf hfs hroot (hstraight stamp hstamp) hstamp
      obtain ⟨lines, hdecoded, hread⟩ := (readMetadata_eq_ok_iff hlines).mp hfound
      exact ⟨names, bytes, lines, hparse, hrecords.present hbears, hdecoded, hread⟩
    · exact hrecalls entry (List.mem_filter.mp hentry).1
  · exact hrecalls

@[simp] theorem root_remember (vault : Vault) (fs : Files) (ref : NoteRef) :
    (vault.remember fs ref).root = vault.root := by
  rw [remember]
  split <;> rfl

theorem IsStraight.of_root_eq {vault' : Vault} (h : vault'.root = vault.root)
    (hstraight : vault.IsStraight fs top ref) : vault'.IsStraight fs top ref := by
  intro stamp hstamp
  rw [stampOf, resolve, rootPlace, h] at hstamp
  rw [Straight, resolve, rootPlace, h]
  exact hstraight stamp hstamp

/-- The vault with metadata put under a path. -/
def putMetadata (vault : Vault) (path : Text) (stamp : Stamp) (found : Metadata) : Vault :=
  { vault with memory := (path, stamp, found) :: vault.memory.filter (·.1 != path) }

theorem remembered?_putMetadata (vault : Vault) (path other : Text) (stamp told : Stamp)
    (found : Metadata) :
    (vault.putMetadata path stamp found).remembered? other told
      = if other = path then if stamp = told then some found else none
        else vault.remembered? other told := by
  rw [remembered?, remembered?, putMetadata, lookup_cons_filter_ne]
  by_cases hother : other = path
  · rw [if_pos hother, if_pos hother]
  · rw [if_neg hother, if_neg hother]

theorem metadata_of_path_eq (h : other.path = ref.path) :
    vault.metadata fs other = vault.metadata fs ref := by
  rw [metadata, metadata, stampOf, stampOf, readMetadata, readMetadata, lines, lines, readText,
    readText, h]

/-- **ON THE WAY** to an answer it makes no difference whether what has just been remembered
    is used again. -/
theorem metadata_remember (vault : Vault) (fs : Files) (ref other : NoteRef) :
    (vault.remember fs ref).metadata fs other = vault.metadata fs other := by
  rw [remember]
  split
  · rename_i stamp found hstamp hfound
    show (vault.putMetadata ref.path stamp found).metadata fs other = _
    have hsame : (vault.putMetadata ref.path stamp found).stampOf fs = vault.stampOf fs := rfl
    by_cases hpath : other.path = ref.path
    · -- the same note again: what was found is remembered, with the time it still bears
      rw [metadata_of_path_eq hpath, metadata_of_path_eq hpath, hfound, metadata, hsame, hstamp]
      simp only [bind, Except.bind, Option.bind, remembered?_putMetadata, if_true]
      rfl
    · have hother : (vault.putMetadata ref.path stamp found).remembered? other.path
          = vault.remembered? other.path := by
        funext told
        rw [remembered?_putMetadata, if_neg hpath]
      rw [metadata, metadata, hother]
      rfl
  · rfl

/-- **ALL STEPS**: notes with straight paths may be remembered one after the other. -/
theorem Recalls.rememberAll (hfs : fs.WellFormed) (hroot : vault.rootPlace fs = .ok top)
    (hrecords : Records seen fs) (hrecalls : vault.Recalls top seen)
    (hstraight : ∀ ref ∈ refs, vault.IsStraight fs top ref) :
    (vault.rememberAll fs refs).Recalls top seen := by
  induction refs generalizing vault with
  | nil => exact hrecalls
  | cons ref rest ih =>
      obtain ⟨href, hrest⟩ := List.forall_mem_cons.mp hstraight
      have hsame : (vault.remember fs ref).root = vault.root := root_remember vault fs ref
      have hroot' : (vault.remember fs ref).rootPlace fs = .ok top := by
        rw [rootPlace, hsame]
        exact hroot
      exact ih hroot' (hrecalls.remember hfs hroot hrecords href)
        fun other hother => (hrest other hother).of_root_eq hsame

theorem root_rememberAll (fs : Files) (refs : List NoteRef) (vault : Vault) :
    (vault.rememberAll fs refs).root = vault.root := by
  induction refs generalizing vault with
  | nil => rfl
  | cons ref rest ih => exact (ih (vault.remember fs ref)).trans (root_remember vault fs ref)

end Vault

/-! ## Requests -/

/-- What a vault is asked for. -/
inductive Request
  | notes
  | tags
  | occurrences (path : Text)
  | optsOut (path : Text)
  | summary (source : Text) (layout : Layout)
  | expand (text : Text) (layout : Layout)

/-- What a request is answered with. -/
abbrev Request.Answer : Request → Type
  | .notes => List NoteRef
  | .tags => List Tag
  | .occurrences _ => List Occurrence
  | .optsOut _ => Bool
  | .summary _ _ => Summary
  | .expand _ _ => Text

namespace Vault

variable {vault : Vault} {fs : Files} {top : Place} {seen : Place → ByteArray → Stamp → Prop}
  {request : Request} {path : Text}

/-- The metadata of the note that a path stands for. -/
def metadataAt (vault : Vault) (fs : Files) (path : Text) : Except Fault Metadata × Vault :=
  match vault.refFor fs path with
  | .ok ref => (vault.metadata fs ref, vault.remember fs ref)
  | .error cause => (.error cause, vault)

/-- The answer to a request, and the vault afterwards. -/
def ask (vault : Vault) (fs : Files) : (request : Request) → Except Fault request.Answer × Vault
  | .notes => (vault.notes fs, vault)
  | .tags => vault.tags fs
  | .occurrences path =>
      ((vault.metadataAt fs path).1.map Metadata.occurrences, (vault.metadataAt fs path).2)
  | .optsOut path =>
      ((vault.metadataAt fs path).1.map Metadata.optedOut, (vault.metadataAt fs path).2)
  | .summary source layout => vault.summary fs source layout
  | .expand text layout => vault.expand fs text layout

/-- The note that a path is taken for has a straight path. -/
def RefersStraight (vault : Vault) (fs : Files) (top : Place) (path : Text) : Prop :=
  ∀ ref, vault.refFor fs path = .ok ref → vault.IsStraight fs top ref

/-- A path in a vault starts at the top in the end, and its names hold no slash. -/
theorem exists_toPlace_join (htop : ∀ name ∈ top, IsName name) (path : Text) :
    ∃ names, (toPlace top).join (parse path) = toPlace names ∧ ∀ name ∈ names, '/' ∉ name := by
  have hwritten : ∀ name ∈ (parse path).names, '/' ∉ name := by
    intro name hname
    exact Text.notMem_of_mem_splitWhere (List.mem_filter.mp hname).1
  rw [join]
  split
  · rename_i hrooted
    refine ⟨(parse path).names, ?_, hwritten⟩
    rw [toPlace, ← hrooted]
  · refine ⟨top ++ (parse path).names, rfl, List.forall_mem_append.mpr ⟨?_, hwritten⟩⟩
    exact fun name hname => (htop name hname).slashless

/-- **CLEAR PATHS** are taken for notes with straight paths: only a link that turns in a
    circle makes another path. -/
theorem refersStraight_of_clear (hfs : fs.WellFormed) (hrooted : vault.Rooted fs top)
    (hclear : fs.IsClear ((toPlace top).join (parse path))) :
    vault.RefersStraight fs top path := by
  have hroot := hrooted.rootPlace hfs
  intro ref href stamp _
  rw [refFor] at href
  cases hresolved : vault.resolve fs path with
  | error cause => rw [hresolved] at href; cases href
  | ok place =>
      rw [hresolved] at href
      have hrefAt : (do return refAt (← vault.rootPlace fs) place) = Except.ok ref := href
      rw [hroot] at hrefAt
      obtain rfl : refAt top place = ref := Except.ok.inj hrefAt
      obtain ⟨hplace, names, rfl⟩ := placeOf_of_resolve hroot hresolved
      obtain ⟨written, hjoined, hslashless⟩ := exists_toPlace_join (hfs.isName hrooted.isSome) path
      rw [hjoined] at hclear hplace
      obtain ⟨hunlinked, hself⟩ := unlinked_of_placeOf hfs hslashless hclear hplace
      have hnames : ∀ name ∈ names, IsName name :=
        fun name hname => hunlinked.names name (List.mem_append_right top hname)
      exact straight_refAt hroot hnames hself

/-- What is asked about a single note is asked about one with a straight path. -/
def AsksStraight (vault : Vault) (fs : Files) (top : Place) : Request → Prop
  | .occurrences path => vault.RefersStraight fs top path
  | .optsOut path => vault.RefersStraight fs top path
  | _ => True

section Moment

variable (hfs : fs.WellFormed) (hroot : vault.rootPlace fs = .ok top)
  (hrecords : Records seen fs) (hrecalls : vault.Recalls top seen)

include hfs hroot hrecords hrecalls

theorem metadata_fresh {ref : NoteRef} (hstraight : vault.IsStraight fs top ref) :
    vault.fresh.metadata fs ref = vault.metadata fs ref := by
  rw [metadata_eq_readMetadata_of_recalls hfs hroot hrecords hrecalls hstraight]
  exact metadata_eq_readMetadata rfl fs ref

/-- **AS A PROVIDER** a vault agrees with one that remembers nothing. -/
theorem agrees_fresh : (vault.provider fs).Agrees (vault.fresh.provider fs) where
  refs := rfl
  notes := by
    intro refs hrefs ref href
    have hstraight := straight_of_mem_notes hfs hroot hrefs href
    have hmetadata := metadata_fresh hfs hroot hrecords hrecalls fun _ _ => hstraight
    exact .inl ⟨congrArg (Except.mapError loadFault) hmetadata, rfl⟩

theorem metadataAt_fresh (hstraight : vault.RefersStraight fs top path) :
    (vault.fresh.metadataAt fs path).1 = (vault.metadataAt fs path).1 := by
  have hsame : vault.fresh.refFor fs path = vault.refFor fs path := rfl
  rw [metadataAt, metadataAt, hsame]
  cases href : vault.refFor fs path with
  | error cause => rfl
  | ok ref => exact metadata_fresh hfs hroot hrecords hrecalls (hstraight ref href)

theorem tags_fresh : (vault.fresh.tags fs).1 = (vault.tags fs).1 := by
  rw [tags_eq_bind, tags_eq_bind, show vault.fresh.notes fs = vault.notes fs from rfl]
  cases hrefs : vault.notes fs with
  | error cause => rfl
  | ok refs =>
      have hload : ∀ ref ∈ refs, (vault.fresh.provider fs).metadata ref
          = (vault.provider fs).metadata ref := by
        intro ref href
        have hstraight := straight_of_mem_notes hfs hroot hrefs href
        exact congrArg (Except.mapError loadFault)
          (metadata_fresh hfs hroot hrecords hrecalls fun _ _ => hstraight)
      show Except.map tagsOf _ = Except.map tagsOf _
      rw [loadEach_congr hload]

/-- **EVERY REQUEST** is answered as by a vault that remembers nothing. -/
theorem ask_fresh (hstraight : vault.AsksStraight fs top request) :
    (vault.ask fs request).1 = (vault.fresh.ask fs request).1 := by
  have hagrees := agrees_fresh hfs hroot hrecords hrecalls
  cases request with
  | notes => rfl
  | tags => exact (tags_fresh hfs hroot hrecords hrecalls).symm
  | occurrences path =>
      exact congrArg (Except.map Metadata.occurrences)
        (metadataAt_fresh hfs hroot hrecords hrecalls hstraight).symm
  | optsOut path =>
      exact congrArg (Except.map Metadata.optedOut)
        (metadataAt_fresh hfs hroot hrecords hrecalls hstraight).symm
  | summary source layout => exact congrArg Run.result (hagrees.summary_eq source layout).symm
  | expand text layout => exact congrArg Run.result (hagrees.expand_eq text layout).symm

theorem recalls_metadataAt (hstraight : vault.RefersStraight fs top path) :
    (vault.metadataAt fs path).2.Recalls top seen := by
  rw [metadataAt]
  cases href : vault.refFor fs path with
  | error cause => exact hrecalls
  | ok ref => exact hrecalls.remember hfs hroot hrecords (hstraight ref href)

/-- Only listed notes are tried on the way to an answer, and they have straight paths. -/
theorem recalls_tried {tried : List NoteRef}
    (htried : ∀ ref ∈ tried, ref ∈ (vault.provider fs).probes) :
    (vault.rememberAll fs tried).Recalls top seen := by
  refine hrecalls.rememberAll hfs hroot hrecords fun ref href => ?_
  obtain ⟨refs, hrefs, hmem⟩ := Provider.mem_refs_of_mem_probes (htried ref href)
  exact fun _ _ => straight_of_mem_notes hfs hroot hrefs hmem

/-- **EVERY REQUEST** keeps the invariant. -/
theorem recalls_ask (hstraight : vault.AsksStraight fs top request) :
    (vault.ask fs request).2.Recalls top seen := by
  cases request with
  | notes => exact hrecalls
  | tags => exact recalls_tried hfs hroot hrecords hrecalls fun ref href => href
  | occurrences path => exact recalls_metadataAt hfs hroot hrecords hrecalls hstraight
  | optsOut path => exact recalls_metadataAt hfs hroot hrecords hrecalls hstraight
  | summary source layout =>
      exact recalls_tried hfs hroot hrecords hrecalls
        fun ref href => Provider.mem_probes_of_summary href
  | expand text layout =>
      exact recalls_tried hfs hroot hrecords hrecalls
        fun ref href => Provider.mem_probes_of_expand _ _ href

end Moment

/-- **NO REQUEST** changes the root of a vault. -/
theorem root_ask (vault : Vault) (fs : Files) (request : Request) :
    (vault.ask fs request).2.root = vault.root := by
  have hmetadata : ∀ path, (vault.metadataAt fs path).2.root = vault.root := by
    intro path
    rw [metadataAt]
    split
    · exact root_remember vault fs _
    · rfl
  cases request with
  | notes => rfl
  | tags => exact root_rememberAll fs _ vault
  | occurrences path => exact hmetadata path
  | optsOut path => exact hmetadata path
  | summary source layout => exact root_rememberAll fs _ vault
  | expand text layout => exact root_rememberAll fs _ vault

end Vault
end NoteDigest
