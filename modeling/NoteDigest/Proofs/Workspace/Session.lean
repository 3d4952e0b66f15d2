import NoteDigest.Proofs.Files.Changing
import NoteDigest.Proofs.Vault.Memory
import NoteDigest.Workspace.Settings

/-! # Sessions — shared vaults between edits of their files

    A session is a run of steps, in any order: edits of the files from outside, and
    requests to the vaults in use.  Whatever is edited, the tree stays well-formed
    (`Edit.wellFormed_apply`), and a shared vault keeps recalling what was once there
    (`recalling_moment`).  So it answers as a new one would (`answer_eq_fresh`), as long as
    stamps tell contents apart and its root stays where it is.

    What is asked about a single note must be asked by a path that no link turns in a circle.
    Behind a circle the reference of a note may name a link, and when the link is made to
    lead elsewhere, the vault does not notice (`circling_answer`). -/

namespace NoteDigest

open NoteDigest.Path Files

/-! ## Edits -/

/-- Something done to the files from outside. -/
inductive Edit
  | write (path : Text) (bytes : ByteArray) (stamp : Stamp)
  | delete (path : Text)
  | makeDirectory (path : Text)
  | link (path target : Text)

namespace Edit

/-- The texts that an edit hands to the system. -/
def texts : Edit → List Text
  | .write path _ _ => [path]
  | .delete path => [path]
  | .makeDirectory path => [path]
  | .link path target => [path, target]

/-- An edit as a change; what is written or linked gets the directories above it. -/
def change : Edit → Change Unit
  | .write path bytes stamp => Change.writeWithParents (parse path) bytes stamp
  | .delete path => Change.apply fun fs => fs.remove (parse path)
  | .makeDirectory path => Change.makeDirectory (parse path)
  | .link path target => do
      Change.makeDirectory (parse path).parent
      Change.apply fun fs => fs.addLink (parse path) target

/-- The tree after an edit, be it done or broken off.  The system takes no text with a NUL. -/
def apply (edit : Edit) (fs : Files) : Files :=
  if edit.texts.any Text.hasNul then fs else (edit.change fs).2

theorem isPiece_parse {text : Text} (h : Text.hasNul text = false) :
    ∀ name ∈ (parse text).names, IsPiece name :=
  fun name hname => isPiece_ofText h name (List.mem_filter.mp hname).1

/-- **EDITS** keep the tree well-formed. -/
theorem wellFormed_apply {fs : Files} (hfs : fs.WellFormed) (edit : Edit) :
    (edit.apply fs).WellFormed := by
  rw [apply]
  split
  · exact hfs
  · rename_i hnul
    have htexts : ∀ text ∈ edit.texts, Text.hasNul text = false := by
      intro text htext
      rw [Bool.eq_false_iff]
      exact fun hbad => hnul (List.any_eq_true.mpr ⟨text, htext, hbad⟩)
    cases edit with
    | write path bytes stamp =>
        have hpath := isPiece_parse (htexts path List.mem_cons_self)
        exact Change.keeps_writeWithParents hpath bytes stamp fs hfs
    | delete path =>
        have hpath := isPiece_parse (htexts path List.mem_cons_self)
        exact Change.Keeps.apply (fun fs fs' hfs h => hfs.remove hpath h) fs hfs
    | makeDirectory path =>
        have hpath := isPiece_parse (htexts path List.mem_cons_self)
        exact Change.keeps_makeDirectory hpath fs hfs
    | link path target =>
        have hpath := isPiece_parse (htexts path List.mem_cons_self)
        have htarget := htexts target (List.mem_cons_of_mem path List.mem_cons_self)
        have hparent : ∀ name ∈ (parse path).parent.names, IsPiece name :=
          fun name hname => hpath name (List.mem_of_mem_dropLast hname)
        refine Change.Keeps.bind (Change.keeps_makeDirectory hparent) (fun _ => ?_) fs hfs
        exact Change.Keeps.apply fun fs fs' hfs h => hfs.addLink hpath htarget h

end Edit

/-! ## Jobs -/

namespace Job

variable {α : Type}

theorem run_ofExcept (result : Except Fault α) (workspace : Workspace) :
    ofExcept result workspace = (result, workspace) := by
  cases result <;> rfl

theorem run_loadSettings (workspace : Workspace) :
    loadSettings workspace
      = (Settings.load workspace.files workspace.settingsPath, workspace) := by
  have hget : (get : Job Workspace) workspace = (.ok workspace, workspace) := rfl
  rw [loadSettings, run_bind_of_ok hget]
  exact run_ofExcept _ _

/-- A vault that is used answers and is put back. -/
theorem run_useVault (place : Place) (ask : Vault → Files → Except Fault α × Vault)
    (workspace : Workspace) :
    useVault place ask workspace
      = ((ask (workspace.vaultAt place []) workspace.files).1,
         workspace.putVault place (ask (workspace.vaultAt place []) workspace.files).2) := by
  have hget : (get : Job Workspace) workspace = (.ok workspace, workspace) := rfl
  rw [useVault, run_bind_of_ok hget]
  exact run_ofExcept _ _

/-- Asks the shared vault at a root. -/
def ask (root : Option Text) (request : Request) : Job request.Answer := do
  let place ← openVault root
  useVault place fun vault fs => vault.ask fs request

end Job

/-! ## Steps -/

/-- A step of a session. -/
inductive Step
  | edit (edit : Edit)
  | ask (root : Option Text) (request : Request)

namespace Workspace

/-- The workspace after a step. -/
def step (workspace : Workspace) : Step → Workspace
  | .edit edit => { workspace with files := edit.apply workspace.files }
  | .ask root request => (Job.ask root request workspace).2

/-- The workspace after the first `i` of some steps. -/
def moment (workspace : Workspace) (steps : List Step) (i : Nat) : Workspace :=
  (steps.take i).foldl step workspace

/-- What the shared vault at a root answers. -/
def answer (workspace : Workspace) (root : Option Text) (request : Request) :
    Except Fault request.Answer :=
  (Job.ask root request workspace).1

/-- The place that a root stands for. -/
def placeOfRoot (workspace : Workspace) (root : Option Text) : Except Fault Place :=
  workspace.files.placeOf (parse (workspace.rootText root))

/-- The vault that a root at a place opens. -/
def sharedVault (workspace : Workspace) (root : Option Text) (place : Place) : Vault :=
  workspace.vaultAt place (workspace.rootText root)

variable {workspace : Workspace} {root : Option Text} {request : Request} {top place : Place}
  {steps : List Step} {i : Nat}

theorem vaultAt_putVault (workspace : Workspace) (place : Place) (vault : Vault) (text : Text) :
    (workspace.putVault place vault).vaultAt place text = vault := by
  rw [vaultAt, putVault, lookup_cons_filter_ne, if_pos rfl]
  rfl

theorem lookup_putVault (workspace : Workspace) (place : Place) (vault : Vault) :
    (workspace.putVault place vault).vaults.lookup top
      = if top = place then some vault else workspace.vaults.lookup top := by
  rw [putVault, lookup_cons_filter_ne]

/-- The vault that is put last is there. -/
theorem putVault_putVault (workspace : Workspace) (place : Place) (vault vault' : Vault) :
    (workspace.putVault place vault).putVault place vault' = workspace.putVault place vault' := by
  simp [putVault, List.filter_filter]

/-- A root that stands for no place opens nothing. -/
theorem run_openVault_of_error {fault : Fault} (h : workspace.placeOfRoot root = .error fault) :
    Job.openVault root workspace = (.error fault, workspace) := by
  have hget : (get : Job Workspace) workspace = (.ok workspace, workspace) := rfl
  have hplace : Job.ofExcept (workspace.placeOfRoot root) workspace = (.error fault, workspace) := by
    rw [Job.run_ofExcept, h]
  rw [Job.openVault, run_bind_of_ok hget]
  exact run_bind_of_error hplace

/-- A root opens the shared vault at its place. -/
theorem run_openVault_of_ok (h : workspace.placeOfRoot root = .ok place) :
    Job.openVault root workspace
      = (.ok place, workspace.putVault place (workspace.sharedVault root place)) := by
  have hget : (get : Job Workspace) workspace = (.ok workspace, workspace) := rfl
  have hplace : Job.ofExcept (workspace.placeOfRoot root) workspace = (.ok place, workspace) := by
    rw [Job.run_ofExcept, h]
  rw [Job.openVault, run_bind_of_ok hget]
  exact run_bind_of_ok hplace

theorem run_ask_of_error {fault : Fault} (h : workspace.placeOfRoot root = .error fault) :
    Job.ask root request workspace = (.error fault, workspace) :=
  run_bind_of_error (run_openVault_of_error h)

/-- The shared vault answers and is put back. -/
theorem run_ask_of_ok (h : workspace.placeOfRoot root = .ok place) :
    Job.ask root request workspace
      = (((workspace.sharedVault root place).ask workspace.files request).1,
         workspace.putVault place
           ((workspace.sharedVault root place).ask workspace.files request).2) := by
  rw [Job.ask, run_bind_of_ok (run_openVault_of_ok h), Job.run_useVault, vaultAt_putVault,
    putVault_putVault]
  rfl

theorem moment_succ {step : Step} (h : steps[i]? = some step) :
    workspace.moment steps (i + 1) = (workspace.moment steps i).step step := by
  rw [moment, List.take_add_one, h, List.foldl_append]
  rfl

theorem moment_succ_of_none (h : steps[i]? = none) :
    workspace.moment steps (i + 1) = workspace.moment steps i := by
  rw [moment, List.take_add_one, h, Option.toList_none, List.append_nil]
  rfl

theorem moment_min (workspace : Workspace) (steps : List Step) (i : Nat) :
    workspace.moment steps i = workspace.moment steps (min i steps.length) := by
  rw [moment, moment, ← List.take_eq_take_min]

/-- The shared vault is in use already, or it is a new one. -/
theorem sharedVault_cases (workspace : Workspace) (root : Option Text) (place : Place) :
    workspace.vaults.lookup place = some (workspace.sharedVault root place)
      ∨ workspace.sharedVault root place = .ofText (workspace.rootText root) := by
  rw [sharedVault, vaultAt]
  cases workspace.vaults.lookup place with
  | some vault => exact .inl rfl
  | none => exact .inr rfl

/-! ## Steady sessions -/

/-- What files have borne up to some moment of a session. -/
def HasSeen (workspace : Workspace) (steps : List Step) (i : Nat) (place : Place)
    (bytes : ByteArray) (stamp : Stamp) : Prop :=
  ∃ j ≤ i, (workspace.moment steps j).files.Bears place bytes stamp

/-- **STEADY**: at every moment of a session the root of the vault in use at a place stands
    for that place, and the contents that any place holds at different moments bear different
    stamps. -/
structure Steady (workspace : Workspace) (steps : List Step) (top : Place) : Prop where
  root : ∀ i vault, (workspace.moment steps i).vaults.lookup top = some vault →
    vault.rootPlace (workspace.moment steps i).files = .ok top
  stamps : ∀ i j place bytes bytes' stamp,
    (workspace.moment steps i).files.Bears place bytes stamp →
      (workspace.moment steps j).files.Bears place bytes' stamp → bytes = bytes'

theorem Steady.records (h : workspace.Steady steps top) (i : Nat) :
    Records (workspace.HasSeen steps i) (workspace.moment steps i).files where
  present := fun hbears => ⟨i, Nat.le_refl i, hbears⟩
  apart := by
    rintro place bytes bytes' stamp ⟨j, -, hbears⟩ ⟨k, -, hbears'⟩
    exact h.stamps j k place bytes bytes' stamp hbears hbears'

/-- The shared vault stands at its place, be it in use already or new. -/
theorem Steady.rootPlace (h : workspace.Steady steps top)
    (hroot : (workspace.moment steps i).placeOfRoot root = .ok top) :
    ((workspace.moment steps i).sharedVault root top).rootPlace (workspace.moment steps i).files
      = .ok top := by
  rcases sharedVault_cases (workspace.moment steps i) root top with hused | hnew
  · exact h.root i _ hused
  · rw [hnew]
    exact hroot

/-- The files in the trees of all moments of a session, with what they bear. -/
def contentsSeen (workspace : Workspace) (steps : List Step) :
    List (Place × ByteArray × Stamp) :=
  (List.range (steps.length + 1)).flatMap fun i => (workspace.moment steps i).files.contents

theorem mem_contentsSeen {bytes : ByteArray} {stamp : Stamp}
    (h : (workspace.moment steps i).files.Bears place bytes stamp) :
    (place, bytes, stamp) ∈ workspace.contentsSeen steps := by
  rw [moment_min] at h
  have hmoment : min i steps.length < steps.length + 1 :=
    Nat.lt_succ_of_le (Nat.min_le_right i steps.length)
  exact List.mem_flatMap.mpr ⟨_, List.mem_range.mpr hmoment, h.mem_contents⟩

/-- Whether a session is steady can be seen from the trees of its moments. -/
theorem steady_of_contentsSeen
    (hroot : ∀ i ≤ steps.length, ∀ vault ∈ (workspace.moment steps i).vaults.lookup top,
      vault.rootPlace (workspace.moment steps i).files = .ok top)
    (hstamps : ∀ x ∈ workspace.contentsSeen steps, ∀ y ∈ workspace.contentsSeen steps,
      x.1 = y.1 → x.2.2 = y.2.2 → x.2.1 = y.2.1) : workspace.Steady steps top where
  root := by
    intro i vault hvault
    rw [moment_min] at hvault ⊢
    exact hroot _ (Nat.min_le_right i _) vault hvault
  stamps := by
    intro i j place bytes bytes' stamp hbears hbears'
    exact hstamps _ (mem_contentsSeen hbears) _ (mem_contentsSeen hbears') rfl rfl

/-! ## What shared vaults recall -/

/-- What a session asks the vault at a place about single notes, it asks about notes with
    straight paths. -/
def AsksStraight (workspace : Workspace) (steps : List Step) (top : Place) : Prop :=
  ∀ i root request, steps[i]? = some (.ask root request) →
    (workspace.moment steps i).placeOfRoot root = .ok top →
      ((workspace.moment steps i).sharedVault root top).AsksStraight
        (workspace.moment steps i).files top request

/-- **INVARIANT**: the tree is well-formed, and the vault in use at a place recalls what has
    been seen. -/
structure Recalling (workspace : Workspace) (steps : List Step) (top : Place) (i : Nat) :
    Prop where
  files : (workspace.moment steps i).files.WellFormed
  vault : ∀ vault, (workspace.moment steps i).vaults.lookup top = some vault →
    vault.Recalls top (workspace.HasSeen steps i)

theorem Recalling.sharedVault (h : workspace.Recalling steps top i) (root : Option Text) :
    ((workspace.moment steps i).sharedVault root top).Recalls top (workspace.HasSeen steps i) := by
  rcases sharedVault_cases (workspace.moment steps i) root top with hused | hnew
  · exact h.vault _ hused
  · rw [hnew]
    exact Vault.recalls_of_memory_eq_nil rfl

/-- What has been seen stays seen. -/
theorem recalls_later {vault : Vault} (h : vault.Recalls top (workspace.HasSeen steps i)) :
    vault.Recalls top (workspace.HasSeen steps (i + 1)) := by
  refine h.mono ?_
  rintro place bytes stamp ⟨j, hj, hbears⟩
  exact ⟨j, Nat.le_succ_of_le hj, hbears⟩

/-- **ONE STEP** keeps the invariant. -/
theorem Recalling.step {step : Step} (h : workspace.Recalling steps top i)
    (hsteady : workspace.Steady steps top) (hstraight : workspace.AsksStraight steps top)
    (hstep : steps[i]? = some step) : workspace.Recalling steps top (i + 1) := by
  have hafter : workspace.moment steps (i + 1) = (workspace.moment steps i).step step :=
    moment_succ hstep
  cases step with
  | edit edit =>
      refine ⟨?_, fun vault hvault => recalls_later (h.vault vault ?_)⟩
      · rw [hafter]
        exact edit.wellFormed_apply h.files
      · rw [hafter] at hvault
        exact hvault
  | ask root request =>
      cases hroot : (workspace.moment steps i).placeOfRoot root with
      | error fault =>
          rw [Workspace.step, run_ask_of_error hroot] at hafter
          refine ⟨by rw [hafter]; exact h.files, fun vault hvault => recalls_later (h.vault vault ?_)⟩
          rwa [hafter] at hvault
      | ok place =>
          rw [Workspace.step, run_ask_of_ok hroot] at hafter
          refine ⟨by rw [hafter]; exact h.files, fun vault hvault => recalls_later ?_⟩
          rw [hafter, lookup_putVault] at hvault
          -- only the vault that was asked has changed
          by_cases htop : top = place
          · subst htop
            rw [if_pos rfl] at hvault
            rw [← Option.some.inj hvault]
            exact Vault.recalls_ask h.files (hsteady.rootPlace hroot) (hsteady.records i)
              (h.sharedVault root) (hstraight i root request hstep hroot)
          · rw [if_neg htop] at hvault
            exact h.vault vault hvault

/-- **ALL STEPS**: by induction on the steps taken so far. -/
theorem recalling_moment (hfs : workspace.files.WellFormed) (hvaults : workspace.vaults = [])
    (hsteady : workspace.Steady steps top) (hstraight : workspace.AsksStraight steps top)
    (i : Nat) : workspace.Recalling steps top i := by
  induction i with
  | zero =>
      refine ⟨hfs, fun vault hvault => ?_⟩
      have hnone : workspace.vaults.lookup top = some vault := hvault
      rw [hvaults] at hnone
      cases hnone
  | succ i ih =>
      cases hstep : steps[i]? with
      | some step => exact ih.step hsteady hstraight hstep
      | none =>
          -- the session is over, and nothing changes any more
          have hsame : workspace.moment steps (i + 1) = workspace.moment steps i :=
            moment_succ_of_none hstep
          refine ⟨by rw [hsame]; exact ih.files, fun vault hvault => ?_⟩
          rw [hsame] at hvault
          exact recalls_later (ih.vault vault hvault)

/-- **A SHARED VAULT ANSWERS AS A NEW ONE WOULD**, with a result or a fault, at every moment of
    a steady session that asks about single notes by straight paths only. -/
theorem answer_eq_fresh (hfs : workspace.files.WellFormed) (hvaults : workspace.vaults = [])
    (hsteady : workspace.Steady steps top) (hstraight : workspace.AsksStraight steps top)
    (i : Nat) (root : Option Text) (request : Request)
    (hasked : steps[i]? = some (.ask root request))
    (hroot : (workspace.moment steps i).placeOfRoot root = .ok top) :
    (workspace.moment steps i).answer root request
      = (((workspace.moment steps i).sharedVault root top).fresh.ask
          (workspace.moment steps i).files request).1 := by
  have hrecalling := recalling_moment hfs hvaults hsteady hstraight i
  rw [answer, run_ask_of_ok hroot]
  exact Vault.ask_fresh hrecalling.files (hsteady.rootPlace hroot) (hsteady.records i)
    (hrecalling.sharedVault root) (hstraight i root request hasked hroot)

/-! ## Two sessions -/

/-- A vault with two notes that were written at the same time. -/
def pair : Workspace where
  files := ⟨[(["vault".toList], .directory),
    (["vault".toList, "c.md".toList], .file (Text.toUtf8 "#one x\n".toList) (.clock 1)),
    (["vault".toList, "d.md".toList], .file (Text.toUtf8 "#two y\n".toList) (.clock 1))], []⟩
  vaultPath := "vault".toList
  settingsPath := "settings.json".toList

theorem wellFormed_pair : pair.files.WellFormed :=
  ⟨by decide, by decide, plain_nil _, rfl⟩

/-- A note is asked for, written anew and asked for again. -/
def rewriting : List Step :=
  [.ask none (.occurrences "c.md".toList),
   .edit (.write "vault/c.md".toList (Text.toUtf8 "#three z\n".toList) (.clock 2)),
   .ask none (.occurrences "c.md".toList)]

theorem steady_rewriting : pair.Steady rewriting ["vault".toList] :=
  steady_of_contentsSeen (by decide +kernel) (by decide +kernel)

theorem asksStraight_rewriting : pair.AsksStraight rewriting ["vault".toList] := by
  intro i root request hasked _
  have hrefers : ∀ i ∈ [0, 2], ((pair.moment rewriting i).sharedVault none
      ["vault".toList]).refFor (pair.moment rewriting i).files "c.md".toList
        = .ok ⟨"c.md".toList, "c".toList⟩ := by decide +kernel
  have hresolves : ∀ i ∈ [0, 2], ((pair.moment rewriting i).sharedVault none
      ["vault".toList]).resolve (pair.moment rewriting i).files "c.md".toList
        = .ok ["vault".toList, "c.md".toList] := by decide +kernel
  match i, hasked with
  | 0, rfl =>
      intro ref href _ _
      obtain rfl := Except.ok.inj ((hrefers 0 (by decide)).symm.trans href)
      exact ⟨["c.md".toList], by decide, hresolves 0 (by decide)⟩
  | 2, rfl =>
      intro ref href _ _
      obtain rfl := Except.ok.inj ((hrefers 2 (by decide)).symm.trans href)
      exact ⟨["c.md".toList], by decide, hresolves 2 (by decide)⟩

/-- The note written anew is read anew. -/
theorem rewriting_answer :
    (pair.moment rewriting 2).answer none (.occurrences "c.md".toList)
      = .ok [Occurrence.on 0 "#three".toList] := by
  have hfresh := answer_eq_fresh wellFormed_pair rfl steady_rewriting asksStraight_rewriting 2 none
    (.occurrences "c.md".toList) rfl (by decide +kernel)
  rw [hfresh]
  decide +kernel

/-- The same path is asked for twice.  It turns back behind a link that stands for itself, so
    the link behind it is not followed, and meanwhile that is made to lead to the other note. -/
def circling : List Step :=
  [.edit (.link "vault/a".toList "a".toList), .edit (.link "vault/b".toList "c.md".toList),
   .ask none (.occurrences "a/../b".toList), .edit (.delete "vault/b".toList),
   .edit (.link "vault/b".toList "d.md".toList), .ask none (.occurrences "a/../b".toList)]

/-- **A PATH THAT IS NOT STRAIGHT** shows the tags of a note that it does not lead to any more,
    in a steady session. -/
theorem circling_answer :
    pair.files.WellFormed ∧ pair.vaults = [] ∧ pair.Steady circling ["vault".toList]
      ∧ circling[5]? = some (.ask none (.occurrences "a/../b".toList))
      ∧ (pair.moment circling 5).placeOfRoot none = .ok ["vault".toList]
      ∧ (pair.moment circling 5).answer none (.occurrences "a/../b".toList)
        = .ok [Occurrence.on 0 "#one".toList]
      ∧ (((pair.moment circling 5).sharedVault none ["vault".toList]).fresh.ask
          (pair.moment circling 5).files (.occurrences "a/../b".toList)).1
        = .ok [Occurrence.on 0 "#two".toList] := by
  refine ⟨wellFormed_pair, rfl, ?_, rfl, ?_, ?_, ?_⟩
  · exact steady_of_contentsSeen (by decide +kernel) (by decide +kernel)
  · decide +kernel
  · decide +kernel
  · decide +kernel

end Workspace
end NoteDigest
