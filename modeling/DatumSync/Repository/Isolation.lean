import DatumSync.Repository.Contained

/-!
# Isolation of a sync

Every workspace directory is published, reported as an error or, where it is gone, pruned, each on its
own.  That holds of a call of `sync` just when no file, check or statement raises outside the family
that the pass around it catches.
-/

namespace DatumSync.Repository

open Python Services Foundation

/-! ## The directories -/

/-- The directories that the loops see are told apart by the names of repository and workspace. -/
theorem Tree.workspaces_injective {tree : Tree} {entry other : Str × WorkspaceDir}
    (hentry : entry ∈ tree.workspaces) (hother : other ∈ tree.workspaces)
    (h : (entry.1, entry.2.name) = (other.1, other.2.name)) : entry = other := by
  have hmem {e : Str × WorkspaceDir} (he : e ∈ tree.workspaces) :
      ∃ repo ∈ tree.repositories, e.2 ∈ repo.workspaces ∧ repo.name = e.1 := by
    obtain ⟨repo, hrepo, he⟩ := List.mem_flatMap.1 he
    obtain ⟨ws, hws, rfl⟩ := List.mem_map.1 he
    exact ⟨repo, (List.mem_filter.1 (List.mem_mergeSort.1 hrepo)).1,
      (List.mem_filter.1 (List.mem_mergeSort.1 hws)).1, rfl⟩
  obtain ⟨repo, hrepo, hdir, hname⟩ := hmem hentry
  obtain ⟨repo', hrepo', hdir', hname'⟩ := hmem hother
  obtain ⟨hrepository, hworkspace⟩ := Prod.mk.inj h
  have hsame : repo = repo' := List.inj_on_of_nodup_map tree.distinct hrepo hrepo'
    (hname.trans (hrepository.trans hname'.symm))
  subst hsame
  exact Prod.ext hrepository (List.inj_on_of_nodup_map repo.distinct hdir hdir' hworkspace)

namespace SyncCall

variable (call : SyncCall) (db : Database)

/-- `load_workspace` for a directory that the loop sees. -/
def load (entry : Str × WorkspaceDir) : Except Exc LoadedWorkspace :=
  loadWorkspace call.loader call.tree.root entry.1 entry.2

/-- The directory loads as a workspace that passes the gate. -/
def Publishes (entry : Str × WorkspaceDir) (ws : LoadedWorkspace) : Prop :=
  entry ∈ call.tree.workspaces ∧ call.load entry = .ok ws ∧ call.gateOf db.hosted ws = .ok ()

/-- The directory does not load, or the gate refuses what loads. -/
def Fails (entry : Str × WorkspaceDir) (e : Exc) : Prop :=
  entry ∈ call.tree.workspaces ∧
    (call.load entry = .error e ∨ ∃ ws, call.load entry = .ok ws ∧ call.gateOf db.hosted ws = .error e)

/-- The workspace is registered, and its directory is gone. -/
def Removed (key : Str × Str) : Prop := key ∈ db.workspaces ∧ key ∉ call.onDisk

/-- What a call of `sync` is to do for every workspace by itself. -/
structure Isolated : Prop where
  /-- The report names what is published and, as errors, what is not. -/
  reported : ∃ report, (call.sync db).1 = .ok report ∧
    (∀ ws, ws ∈ report.loaded ↔ ∃ entry, call.Publishes db entry ws) ∧
    ∀ error, error ∈ report.errors ↔
      ∃ entry e, call.Fails db entry e ∧ error = (label entry.1 entry.2.name, e.message)
  unchanged : call.dryRun = true → (call.sync db).2 = db
  published : call.dryRun = false → ∀ entry ws, call.Publishes db entry ws →
    (call.sync db).2.workspaces.lookup (entry.1, entry.2.name) = some (call.row ws)
  pruned : call.dryRun = false → call.prune = true → ∀ key, call.Removed db key →
    (call.sync db).2.workspaces.lookup key = none
  /-- What fails keeps its row. -/
  kept : ∀ entry e, call.Fails db entry e →
    (call.sync db).2.workspaces.lookup (entry.1, entry.2.name) =
      db.workspaces.lookup (entry.1, entry.2.name)
  /-- No other row is touched. -/
  framed : ∀ key, (∀ entry ws, call.Publishes db entry ws → key ≠ (entry.1, entry.2.name)) →
    ¬ (call.prune = true ∧ call.Removed db key) →
    (call.sync db).2.workspaces.lookup key = db.workspaces.lookup key
  /-- The hosted services of the removed workspaces are deleted, and no others. -/
  services : ∀ name row, (call.sync db).2.hosted.table.lookup name = some row ↔
    db.hosted.table.lookup name = some row ∧
      ¬ (call.dryRun = false ∧ call.prune = true ∧ call.Removed db (row.repository, row.workspace))

/-- Nothing that the call gets to raises outside the family that is caught around it. -/
structure Handled : Prop where
  files : ∀ entry ∈ call.tree.workspaces,
    DirContained call.loader call.tree.root entry.1 entry.2
  checks : ∀ entry ∈ call.tree.workspaces, ∀ ws, call.load entry = .ok ws →
    call.GateContained db.hosted ws
  /-- No statement of the transaction raises. -/
  statements : call.dryRun = false →
    (∀ repo ∈ call.tree.visible, call.statements.repository repo.name = none) ∧
    (∀ entry ws, call.Publishes db entry ws → call.statements.workspace ws = none) ∧
    (call.prune = true → ∀ key, call.Removed db key → call.statements.prune key = none)

variable {call db}

/-! ## The passes -/

theorem scan_isOk_iff :
    (∃ result, scan call.loader call.tree.root call.tree.workspaces = .ok result) ↔
      ∀ entry ∈ call.tree.workspaces,
        DirContained call.loader call.tree.root entry.1 entry.2 := by
  have hcontained : Contained call.load isCollected call.tree.workspaces ↔ _ :=
    forall₂_congr fun _ _ ↦ onlyRaises_loadWorkspace
  rw [← hcontained, ← collect_isOk_iff]
  unfold scan
  change (∃ result, (collect call.load isCollected call.tree.workspaces >>= _) = _) ↔ _
  cases collect call.load isCollected call.tree.workspaces with
  | error e => exact iff_of_false (fun h ↦ nomatch h.choose_spec) fun h ↦ nomatch h.choose_spec
  | ok result => exact iff_of_true ⟨_, rfl⟩ ⟨_, rfl⟩

theorem mem_of_scan {loaded : List LoadedWorkspace} {errors : List (Str × Str)}
    (h : scan call.loader call.tree.root call.tree.workspaces = .ok (loaded, errors)) :
    (∀ ws, ws ∈ loaded ↔ ∃ entry ∈ call.tree.workspaces, call.load entry = .ok ws) ∧
      ∀ error, error ∈ errors ↔ ∃ entry e, entry ∈ call.tree.workspaces ∧
        call.load entry = .error e ∧ error = (label entry.1 entry.2.name, e.message) := by
  unfold scan at h
  change (collect call.load isCollected call.tree.workspaces >>= _) = _ at h
  cases hcollect : collect call.load isCollected call.tree.workspaces with
  | error e =>
    rw [hcollect] at h
    cases h
  | ok result =>
    obtain ⟨found, refused⟩ := result
    rw [hcollect] at h
    obtain ⟨rfl, rfl⟩ := Prod.mk.inj (Except.ok.inj h)
    obtain ⟨hfound, hrefused⟩ := mem_of_collect hcollect
    refine ⟨hfound, fun error ↦ ?_⟩
    simp only [List.mem_map, Prod.exists, hrefused, and_assoc]
    exact exists₃_congr fun _ _ _ ↦ and_congr_right fun _ ↦ and_congr_right fun _ ↦ eq_comm

variable {hosted : Hosted} {loaded passed : List LoadedWorkspace} {errors : List (Str × Str)}

theorem passOne_eq_ok {ws other : LoadedWorkspace} :
    call.passOne hosted ws = .ok other ↔ call.gateOf hosted ws = .ok () ∧ ws = other := by
  unfold passOne
  cases call.gateOf hosted ws with
  | error e => exact iff_of_false nofun fun h ↦ nomatch h.1
  | ok _ =>
    change (.ok ws : Except Exc LoadedWorkspace) = .ok other ↔ _
    rw [Except.ok.injEq, and_iff_right rfl]

theorem passOne_eq_error {ws : LoadedWorkspace} {e : Exc} :
    call.passOne hosted ws = .error e ↔ call.gateOf hosted ws = .error e := by
  unfold passOne
  cases call.gateOf hosted ws with
  | error f =>
    change (.error f : Except Exc LoadedWorkspace) = .error e ↔ _
    rw [Except.error.injEq, Except.error.injEq]
  | ok _ => exact iff_of_false nofun nofun

theorem applyGate_isOk_iff :
    (∃ result, call.applyGate hosted loaded = .ok result) ↔
      ∀ ws ∈ loaded, call.GateContained hosted ws := by
  have hcontained : Contained (call.passOne hosted) isPublishError loaded ↔
      ∀ ws ∈ loaded, call.GateContained hosted ws :=
    forall₂_congr fun ws _ ↦ (forall_congr' fun e ↦ imp_congr_left passOne_eq_error).trans
      onlyRaises_gate
  rw [← hcontained, ← collect_isOk_iff]
  unfold applyGate
  cases collect (call.passOne hosted) isPublishError loaded with
  | error e => exact iff_of_false (fun h ↦ nomatch h.choose_spec) fun h ↦ nomatch h.choose_spec
  | ok result => exact iff_of_true ⟨_, rfl⟩ ⟨_, rfl⟩

theorem mem_of_applyGate (h : call.applyGate hosted loaded = .ok (passed, errors)) :
    (∀ ws, ws ∈ passed ↔ ws ∈ loaded ∧ call.gateOf hosted ws = .ok ()) ∧
      ∀ error, error ∈ errors ↔ ∃ ws e, ws ∈ loaded ∧ call.gateOf hosted ws = .error e ∧
        error = (label ws.repository ws.name, e.message) := by
  unfold applyGate at h
  cases hcollect : collect (call.passOne hosted) isPublishError loaded with
  | error e =>
    rw [hcollect] at h
    cases h
  | ok result =>
    obtain ⟨found, refused⟩ := result
    rw [hcollect] at h
    obtain ⟨rfl, rfl⟩ := Prod.mk.inj (Except.ok.inj h)
    obtain ⟨hfound, hrefused⟩ := mem_of_collect hcollect
    constructor
    · intro ws
      simp only [hfound, passOne_eq_ok, ← and_assoc, exists_eq_right]
    · intro error
      simp only [List.mem_map, Prod.exists, hrefused, passOne_eq_error, and_assoc]
      exact exists₂_congr fun _ _ ↦ and_congr_right fun _ ↦ and_congr_right fun _ ↦ eq_comm

/-! ## The transaction -/

/-- What the statements of the transaction leave. -/
def written (call : SyncCall) (passed : List LoadedWorkspace) (stale : List (Str × Str))
    (db : Database) : Database :=
  let db := call.tree.visible.foldl (fun db repo ↦ call.writeRepository repo db) db
  let db := passed.foldl (fun db ws ↦ call.writeWorkspace ws db) db
  if call.prune then stale.foldl (fun db key ↦ deleteStale key db) db else db

variable {stale : List (Str × Str)} {before after : Database} {key : Str × Str}

theorem transaction_eq_ok : call.transaction passed stale before = .ok after ↔
    ((∀ repo ∈ call.tree.visible, call.statements.repository repo.name = none) ∧
      (∀ ws ∈ passed, call.statements.workspace ws = none) ∧
      (call.prune = true → ∀ key ∈ stale, call.statements.prune key = none)) ∧
    after = call.written passed stale before := by
  unfold transaction upsertRepositories upsertWorkspaces pruneStale written
  simp only [bind_eq_ok, runEach_eq_ok]
  cases call.prune with
  | true =>
    simp only [if_true, runEach_eq_ok, forall_const]
    constructor
    · rintro ⟨_, ⟨hrepositories, rfl⟩, _, ⟨hworkspaces, rfl⟩, hprune, rfl⟩
      exact ⟨⟨hrepositories, hworkspaces, hprune⟩, rfl⟩
    · rintro ⟨⟨hrepositories, hworkspaces, hprune⟩, rfl⟩
      exact ⟨_, ⟨hrepositories, rfl⟩, _, ⟨hworkspaces, rfl⟩, hprune, rfl⟩
  | false =>
    constructor
    · rintro ⟨_, ⟨hrepositories, rfl⟩, _, ⟨hworkspaces, rfl⟩, hafter⟩
      exact ⟨⟨hrepositories, hworkspaces, nofun⟩, (Except.ok.inj hafter).symm⟩
    · rintro ⟨⟨hrepositories, hworkspaces, _⟩, rfl⟩
      exact ⟨_, ⟨hrepositories, rfl⟩, _, ⟨hworkspaces, rfl⟩, rfl⟩

/-- The upserts touch no other row. -/
theorem lookup_writeWorkspaces_of_ne (h : ∀ ws ∈ passed, (ws.repository, ws.name) ≠ key)
    (db : Database) :
    (passed.foldl (fun db ws ↦ call.writeWorkspace ws db) db).workspaces.lookup key =
      db.workspaces.lookup key := by
  induction passed generalizing db with
  | nil => rfl
  | cons ws rest ih =>
    obtain ⟨hws, hrest⟩ := List.forall_mem_cons.1 h
    rw [List.foldl_cons, ih hrest]
    exact AList.lookup_insert_ne hws.symm

/-- The upserts write the row of every workspace that passed. -/
theorem lookup_writeWorkspaces_mem {ws : LoadedWorkspace} (hws : ws ∈ passed)
    (hunique : ∀ other ∈ passed, (other.repository, other.name) = (ws.repository, ws.name) →
      other = ws) (db : Database) :
    (passed.foldl (fun db ws ↦ call.writeWorkspace ws db) db).workspaces.lookup
      (ws.repository, ws.name) = some (call.row ws) := by
  induction passed generalizing db with
  | nil => cases hws
  | cons first rest ih =>
    obtain ⟨hfirst, hrest⟩ := List.forall_mem_cons.1 hunique
    by_cases hlater : ws ∈ rest
    · exact ih hlater hrest _
    · obtain rfl : ws = first := (List.mem_cons.1 hws).resolve_right hlater
      have hno : ∀ other ∈ rest, (other.repository, other.name) ≠ (ws.repository, ws.name) :=
        fun other hother h ↦ hlater (hrest other hother h ▸ hother)
      rw [List.foldl_cons, lookup_writeWorkspaces_of_ne hno]
      exact AList.lookup_insert _

theorem lookup_deleteStales (db : Database) :
    (stale.foldl (fun db key ↦ deleteStale key db) db).workspaces.lookup key =
      if key ∈ stale then none else db.workspaces.lookup key := by
  induction stale generalizing db with
  | nil => rfl
  | cons first rest ih =>
    rw [List.foldl_cons, ih]
    by_cases hfirst : key = first
    · subst hfirst
      rw [if_pos List.mem_cons_self]
      split
      · rfl
      · exact AList.lookup_erase _ _
    · simp only [List.mem_cons, hfirst, false_or]
      congr 1
      exact AList.lookup_erase_ne hfirst

/-- The row is of one of the workspaces. -/
theorem hosted_deleteStales {name : Str} {row : HostedRow} (db : Database) :
    (stale.foldl (fun db key ↦ deleteStale key db) db).hosted.table.lookup name = some row ↔
      db.hosted.table.lookup name = some row ∧ (row.repository, row.workspace) ∉ stale := by
  induction stale generalizing db with
  | nil => simp
  | cons first rest ih =>
    have hdelete : (deleteStale first db).hosted.table.lookup name = some row ↔
        db.hosted.table.lookup name = some row ∧ (row.repository, row.workspace) ≠ first := by
      change (Table.keep _ db.hosted.table).lookup name = some row ↔ _
      rw [Table.lookup_keep, Option.filter_eq_some_iff, ne_eq, Prod.ext_iff]
      simp [HostedRow.ownedBy, imp_iff_not_or]
    rw [List.foldl_cons, ih, hdelete, and_assoc, List.mem_cons, not_or]

/-! ## The whole call -/

variable {report : SyncReport} {loadErrors gateErrors : List (Str × Str)}

/-- A call that returns has gone through all passes. -/
theorem sync_of_ok (h : (call.sync db).1 = .ok report) :
    ∃ loaded loadErrors passed gateErrors,
      scan call.loader call.tree.root call.tree.workspaces = .ok (loaded, loadErrors) ∧
      call.applyGate db.hosted loaded = .ok (passed, gateErrors) ∧
      report = ⟨passed, loadErrors ++ gateErrors, call.findStale db, call.publisher⟩ ∧
      (call.dryRun = true ∧ (call.sync db).2 = db ∨ call.dryRun = false ∧
        call.transaction passed (call.findStale db) db = .ok (call.sync db).2) := by
  unfold sync at h ⊢
  split at h
  · cases h
  · next loaded loadErrors hscan =>
    rw [hscan]
    dsimp only at h ⊢
    split at h
    · cases h
    · next passed gateErrors hgate =>
      refine ⟨loaded, loadErrors, passed, gateErrors, rfl, hgate, ?_⟩
      split at h
      · next hdry => exact ⟨(Except.ok.inj h).symm, .inl ⟨hdry, by rw [hdry]; rfl⟩⟩
      · next hdry =>
        split at h
        · cases h
        · next after htransaction =>
          refine ⟨(Except.ok.inj h).symm, .inr ⟨Bool.eq_false_of_not_eq_true hdry, ?_⟩⟩
          rw [if_neg hdry, htransaction]

/-- The passes that do not raise make a call that returns. -/
theorem sync_eq_ok
    (hscan : scan call.loader call.tree.root call.tree.workspaces = .ok (loaded, loadErrors))
    (hgate : call.applyGate db.hosted loaded = .ok (passed, gateErrors))
    (htransaction : call.dryRun = false →
      ∃ after, call.transaction passed (call.findStale db) db = .ok after) :
    ∃ report, (call.sync db).1 = .ok report := by
  unfold sync
  rw [hscan]
  dsimp only
  rw [hgate]
  dsimp only
  split
  · exact ⟨_, rfl⟩
  · next hdry =>
    obtain ⟨after, h⟩ := htransaction (Bool.eq_false_of_not_eq_true hdry)
    rw [h]
    exact ⟨_, rfl⟩

/-- What passes the gate is what the directories publish. -/
theorem mem_passed
    (hscan : scan call.loader call.tree.root call.tree.workspaces = .ok (loaded, loadErrors))
    (hgate : call.applyGate db.hosted loaded = .ok (passed, gateErrors)) (ws : LoadedWorkspace) :
    ws ∈ passed ↔ ∃ entry, call.Publishes db entry ws := by
  rw [(mem_of_applyGate hgate).1, (mem_of_scan hscan).1]
  simp only [Publishes, ← and_assoc, exists_and_right]

theorem mem_findStale : key ∈ call.findStale db ↔ call.Removed db key := by
  unfold findStale Removed
  rw [List.mem_filter, AList.mem_keys, decide_eq_true_iff]

theorem sync_isOk_iff : (∃ report, (call.sync db).1 = .ok report) ↔ call.Handled db := by
  constructor
  · rintro ⟨report, h⟩
    obtain ⟨loaded, loadErrors, passed, gateErrors, hscan, hgate, _, hend⟩ := sync_of_ok h
    refine ⟨scan_isOk_iff.1 ⟨_, hscan⟩, fun entry hentry ws hload ↦ ?_, fun hdry ↦ ?_⟩
    · exact applyGate_isOk_iff.1 ⟨_, hgate⟩ ws
        (((mem_of_scan hscan).1 ws).2 ⟨entry, hentry, hload⟩)
    · obtain ⟨hdry', _⟩ | ⟨_, htransaction⟩ := hend
      · rw [hdry] at hdry'
        cases hdry'
      · obtain ⟨⟨hrepositories, hworkspaces, hprune⟩, _⟩ := transaction_eq_ok.1 htransaction
        refine ⟨hrepositories, fun entry ws hws ↦ ?_, fun h key hkey ↦ ?_⟩
        · exact hworkspaces ws ((mem_passed hscan hgate ws).2 ⟨entry, hws⟩)
        · exact hprune h key (mem_findStale.2 hkey)
  · rintro ⟨hfiles, hchecks, hstatements⟩
    obtain ⟨⟨loaded, loadErrors⟩, hscan⟩ := scan_isOk_iff.2 hfiles
    have hloaded : ∀ ws ∈ loaded, call.GateContained db.hosted ws := fun ws hws ↦ by
      obtain ⟨entry, hentry, hload⟩ := ((mem_of_scan hscan).1 ws).1 hws
      exact hchecks entry hentry ws hload
    obtain ⟨⟨passed, gateErrors⟩, hgate⟩ := applyGate_isOk_iff.2 hloaded
    refine sync_eq_ok hscan hgate fun hdry ↦ ⟨_, transaction_eq_ok.2 ⟨?_, rfl⟩⟩
    obtain ⟨hrepositories, hworkspaces, hprune⟩ := hstatements hdry
    refine ⟨hrepositories, fun ws hws ↦ ?_, fun h key hkey ↦ ?_⟩
    · obtain ⟨entry, hentry⟩ := (mem_passed hscan hgate ws).1 hws
      exact hworkspaces entry ws hentry
    · exact hprune h key (mem_findStale.1 hkey)

/-! ## Isolation -/

variable {entry other : Str × WorkspaceDir} {ws another : LoadedWorkspace} {e : Exc}

theorem Publishes.keyed (h : call.Publishes db entry ws) :
    (ws.repository, ws.name) = (entry.1, entry.2.name) := by
  obtain ⟨hrepository, hdir⟩ := loadWorkspace_eq_ok h.2.1
  rw [LoadedWorkspace.name, hrepository, hdir]

/-- What is collected is what fails. -/
theorem mem_errors
    (hscan : scan call.loader call.tree.root call.tree.workspaces = .ok (loaded, loadErrors))
    (hgate : call.applyGate db.hosted loaded = .ok (passed, gateErrors)) (error : Str × Str) :
    error ∈ loadErrors ++ gateErrors ↔ ∃ entry e, call.Fails db entry e ∧
      error = (label entry.1 entry.2.name, e.message) := by
  rw [List.mem_append, (mem_of_scan hscan).2, (mem_of_applyGate hgate).2]
  constructor
  · rintro (⟨entry, e, hmem, hload, rfl⟩ | ⟨ws, e, hws, hrefused, rfl⟩)
    · exact ⟨entry, e, ⟨hmem, .inl hload⟩, rfl⟩
    · obtain ⟨entry, hmem, hload⟩ := ((mem_of_scan hscan).1 ws).1 hws
      obtain ⟨hrepository, hdir⟩ := loadWorkspace_eq_ok hload
      refine ⟨entry, e, ⟨hmem, .inr ⟨ws, hload, hrefused⟩⟩, ?_⟩
      rw [LoadedWorkspace.name, hrepository, hdir]
  · rintro ⟨entry, e, ⟨hmem, hload | ⟨ws, hload, hrefused⟩⟩, rfl⟩
    · exact .inl ⟨entry, e, hmem, hload, rfl⟩
    · obtain ⟨hrepository, hdir⟩ := loadWorkspace_eq_ok hload
      refine .inr ⟨ws, e, ((mem_of_scan hscan).1 ws).2 ⟨entry, hmem, hload⟩, hrefused, ?_⟩
      rw [LoadedWorkspace.name, hrepository, hdir]

/-- Under one key at most one workspace is published. -/
theorem Publishes.unique (h : call.Publishes db entry ws) (h' : call.Publishes db other another)
    (hkey : (another.repository, another.name) = (ws.repository, ws.name)) : another = ws := by
  rw [h.keyed, h'.keyed] at hkey
  have hentry := Tree.workspaces_injective h'.1 h.1 hkey
  have hload := h'.2.1
  rw [hentry, h.2.1] at hload
  exact (Except.ok.inj hload).symm

/-- What fails is not published. -/
theorem Fails.not_publishes (h : call.Fails db entry e) (h' : call.Publishes db other ws) :
    (entry.1, entry.2.name) ≠ (other.1, other.2.name) := by
  intro hkey
  obtain ⟨hmem, hfails⟩ := h
  rw [← Tree.workspaces_injective hmem h'.1 hkey] at h'
  obtain hload | ⟨failed, hload, hgate⟩ := hfails
  · cases hload.symm.trans h'.2.1
  · obtain rfl := Except.ok.inj (hload.symm.trans h'.2.1)
    cases hgate.symm.trans h'.2.2

/-- What is on disk is not removed. -/
theorem not_removed (h : entry ∈ call.tree.workspaces) :
    ¬ call.Removed db (entry.1, entry.2.name) :=
  fun hremoved ↦ hremoved.2 (List.mem_map.2 ⟨entry, h, rfl⟩)

/-- The row under a key after the transaction. -/
theorem lookup_written : (call.written passed stale db).workspaces.lookup key =
    if call.prune = true ∧ key ∈ stale then none
    else (passed.foldl (fun db ws ↦ call.writeWorkspace ws db)
      (call.tree.visible.foldl (fun db repo ↦ call.writeRepository repo db) db)).workspaces.lookup
        key := by
  unfold written
  cases call.prune with
  | true => simp only [if_true, lookup_deleteStales, true_and]
  | false => simp

theorem visible_workspaces (db : Database) :
    (call.tree.visible.foldl (fun db repo ↦ call.writeRepository repo db) db).workspaces =
      db.workspaces :=
  foldl_fixed call.writeRepository Database.workspaces (fun _ _ ↦ rfl) db

/-- The rows of hosted services after the transaction. -/
theorem hosted_written {name : Str} {row : HostedRow} :
    (call.written passed stale db).hosted.table.lookup name = some row ↔
      db.hosted.table.lookup name = some row ∧
        ¬ (call.prune = true ∧ (row.repository, row.workspace) ∈ stale) := by
  have hupserts : (passed.foldl (fun db ws ↦ call.writeWorkspace ws db)
      (call.tree.visible.foldl (fun db repo ↦ call.writeRepository repo db) db)).hosted =
        db.hosted :=
    (foldl_fixed call.writeWorkspace Database.hosted (fun _ _ ↦ rfl) _).trans
      (foldl_fixed call.writeRepository Database.hosted (fun _ _ ↦ rfl) db)
  unfold written
  cases call.prune with
  | true => simp only [if_true, hosted_deleteStales, hupserts, true_and]
  | false => simp [hupserts]

/-- A call of `sync` publishes, reports, keeps and deletes what it should, every workspace by itself,
just when nothing that it gets to raises outside the family that is caught around it. -/
theorem isolated_iff (call : SyncCall) (db : Database) : call.Isolated db ↔ call.Handled db := by
  refine ⟨fun h ↦ sync_isOk_iff.1 ⟨_, h.reported.choose_spec.1⟩, fun h ↦ ?_⟩
  obtain ⟨report, hreport⟩ := sync_isOk_iff.2 h
  obtain ⟨loaded, loadErrors, passed, gateErrors, hscan, hgate, rfl, hend⟩ := sync_of_ok hreport
  have hpassed := mem_passed hscan hgate
  have hframed : ∀ key, (∀ entry ws, call.Publishes db entry ws → key ≠ (entry.1, entry.2.name)) →
      ¬ (call.prune = true ∧ call.Removed db key) →
      (call.sync db).2.workspaces.lookup key = db.workspaces.lookup key := by
    intro key hkey hremoved
    obtain ⟨_, hafter⟩ | ⟨_, htransaction⟩ := hend
    · rw [hafter]
    · rw [(transaction_eq_ok.1 htransaction).2, lookup_written,
        if_neg fun h ↦ hremoved ⟨h.1, mem_findStale.1 h.2⟩, lookup_writeWorkspaces_of_ne,
        visible_workspaces]
      intro ws hws
      obtain ⟨entry, hentry⟩ := (hpassed ws).1 hws
      exact fun h ↦ hkey entry ws hentry (h.symm.trans hentry.keyed)
  refine ⟨⟨_, hreport, hpassed, mem_errors hscan hgate⟩, ?_, ?_, ?_, ?_, hframed, ?_⟩
  · intro hdry
    obtain ⟨_, hafter⟩ | ⟨hdry', _⟩ := hend
    · exact hafter
    · rw [hdry] at hdry'
      cases hdry'
  · intro hdry entry ws hws
    obtain ⟨hdry', _⟩ | ⟨_, htransaction⟩ := hend
    · rw [hdry] at hdry'
      cases hdry'
    · rw [(transaction_eq_ok.1 htransaction).2, lookup_written,
        if_neg fun h ↦ not_removed hws.1 (mem_findStale.1 h.2), ← hws.keyed]
      refine lookup_writeWorkspaces_mem ((hpassed ws).2 ⟨entry, hws⟩) (fun other hother hkey ↦ ?_) _
      obtain ⟨entry', hentry'⟩ := (hpassed other).1 hother
      exact hws.unique hentry' hkey
  · intro hdry hprune key hkey
    obtain ⟨hdry', _⟩ | ⟨_, htransaction⟩ := hend
    · rw [hdry] at hdry'
      cases hdry'
    · rw [(transaction_eq_ok.1 htransaction).2, lookup_written,
        if_pos ⟨hprune, mem_findStale.2 hkey⟩]
  · exact fun entry e h ↦ hframed _ (fun other ws h' ↦ h.not_publishes h')
      fun hremoved ↦ not_removed h.1 hremoved.2
  · intro name row
    obtain ⟨hdry, hafter⟩ | ⟨hdry, htransaction⟩ := hend
    · rw [hafter, hdry]
      simp
    · rw [(transaction_eq_ok.1 htransaction).2, hosted_written, mem_findStale, hdry]
      simp

/-- A call that raises leaves every row as it is. -/
theorem sync_of_error : (call.sync db).1 = .error e → (call.sync db).2 = db := by
  unfold sync
  cases scan call.loader call.tree.root call.tree.workspaces with
  | error f => exact fun _ ↦ rfl
  | ok scanned =>
    dsimp only
    cases call.applyGate db.hosted scanned.1 with
    | error f => exact fun _ ↦ rfl
    | ok gated =>
      dsimp only
      cases call.dryRun with
      | true => exact fun _ ↦ rfl
      | false =>
        cases call.transaction gated.1 (call.findStale db) db with
        | error f => exact fun _ ↦ rfl
        | ok after => exact nofun

end SyncCall

/-- A manifest of one byte that is not UTF-8, in the only workspace directory. -/
def undecodable : SyncCall where
  tree := ⟨str "/repositories", [⟨str "etl", [⟨str "load", .content [0xFF], .missing, .missing⟩],
    by decide⟩], by decide⟩
  loader := ⟨fun _ ↦ .error (.raised .validationError []), fun _ ↦ .ok [],
    ⟨fun _ ↦ [], fun _ ↦ false⟩, 1000⟩
  outcomes := ⟨fun _ ↦ none, fun _ ↦ .ok (), fun _ ↦ .ok ()⟩
  statements := ⟨fun _ ↦ none, fun _ ↦ none, fun _ ↦ none⟩
  publisher := str "local"
  time := 1
  dryRun := false
  prune := false

/-- The error of the decoding passes through `scan`, and nothing is reported. -/
theorem undecodable_not_isolated : ¬ ∀ (call : SyncCall) db, call.Isolated db := by
  intro h
  have hworkspaces : undecodable.tree.workspaces =
      [(str "etl", ⟨str "load", .content [0xFF], .missing, .missing⟩)] := by
    have hetl : isVisible (str "etl") = true := by decide
    have hload : isVisible (str "load") = true := by decide
    simp [Tree.workspaces, Tree.visible, visibleDirs, undecodable, hetl, hload]
  obtain ⟨report, hreport, _⟩ := (h undecodable ⟨∅, ∅, ⟨∅, 0, nofun⟩⟩).reported
  unfold SyncCall.sync at hreport
  rw [hworkspaces] at hreport
  cases hreport

end DatumSync.Repository
