import DatumSync.Foundation.Machine
import DatumSync.Repository.Isolation

/-!
# Service names across workspaces

A sync is taken apart into its scan, one step of the gate for every workspace, and its transaction,
and jobs register services between any two of these.  The gate asks the table of hosted services, which
knows a name only from the first run on.  A name that is held when the gate looks is decided by the
gate, since its holder stays up to the transaction.  So published workspaces share no service name
just as long as the names that nobody held do not clash.
-/

namespace DatumSync.Repository

open Python Services Foundation

/-! ## Names -/

/-- The manifest declares a `service/*` output of the name. -/
def WorkspaceManifest.Declares (manifest : WorkspaceManifest) (name : Str) : Prop :=
  ∃ out ∈ manifest.outputs, isService out.type = true ∧ out.name = name

/-- No two published workspaces declare a service of one name, and no name that one declares is held
by another workspace. -/
structure Database.Distinct (db : Database) : Prop where
  unique : ∀ key other row row' name, db.workspaces.lookup key = some row →
    db.workspaces.lookup other = some row' → row.manifest.Declares name →
    row'.manifest.Declares name → key = other
  free : ∀ key row name, db.workspaces.lookup key = some row → row.manifest.Declares name →
    db.hosted.isFree key.1 key.2 name = true

/-- Repository and name, the key of the published row. -/
abbrev LoadedWorkspace.key (ws : LoadedWorkspace) : Str × Str := (ws.repository, ws.name)

/-! ## Syncs and jobs, step by step -/

/-- A sync between its scan and its transaction. -/
structure Pass where
  call : SyncCall
  stale : List (Str × Str)
  pending : List LoadedWorkspace
  /-- What has passed the gate, with the hosted services that the gate saw. -/
  passed : List (LoadedWorkspace × Hosted)

/-- The workspaces that the transaction publishes. -/
def Pass.loaded (pass : Pass) : List LoadedWorkspace := pass.passed.map Prod.fst

/-- The database, and the sync that runs. -/
structure Registry where
  db : Database
  pass : Option Pass

inductive SyncAction where
  /-- `scan` and `_find_stale` -/
  | start (call : SyncCall)
  /-- The gate for the next workspace. -/
  | check
  /-- The transaction, or the end of a dry run. -/
  | finish
  /-- A statement of `register`, for a job that completes. -/
  | register (service : Service)

/-- One step; a sync that raises is over. -/
def Registry.step (s : Registry) : SyncAction → Option Registry
  | .start call =>
    match s.pass with
    | some _ => none
    | none =>
      match scan call.loader call.tree.root call.tree.workspaces with
      | .error _ => some s
      | .ok (loaded, _) => some { s with pass := some ⟨call, call.findStale s.db, loaded, []⟩ }
  | .check =>
    match s.pass with
    | some ⟨call, stale, ws :: rest, passed⟩ =>
      match call.gateOf s.db.hosted ws with
      | .ok () => some { s with pass := some ⟨call, stale, rest, passed ++ [(ws, s.db.hosted)]⟩ }
      | .error e => some { s with
          pass := if isPublishError e then some ⟨call, stale, rest, passed⟩ else none }
    | _ => none
  | .finish =>
    match s.pass with
    | some ⟨call, stale, [], passed⟩ =>
      if call.dryRun then some { s with pass := none }
      else match call.transaction (passed.map Prod.fst) stale s.db with
        | .error _ => some { s with pass := none }
        | .ok db => some ⟨db, none⟩
    | _ => none
  | .register service =>
    some { s with db := { s.db with hosted := (s.db.hosted.upsert service).1 } }

def syncMachine : Machine Registry SyncAction := ⟨Registry.step⟩

theorem syncMachine_step (s : Registry) (a : SyncAction) : syncMachine.step s a = s.step a := rfl

/-! ## What the gate cannot see -/

/-- The names that nobody held when the gate looked do not clash: of two workspaces of the pass that
declare one name, it was held when the gate looked at the first; a name that a workspace which stays
declares too was held; and a name that was not held has no row of another since, unless the row is
pruned. -/
structure Pass.Settled (pass : Pass) (db : Database) : Prop where
  together : pass.passed.Pairwise fun entry later ↦ entry.1.key ≠ later.1.key → ∀ name,
    entry.1.manifest.Declares name → later.1.manifest.Declares name → entry.2.IsHeld name
  staying : ∀ entry ∈ pass.passed, ∀ key row name, db.workspaces.lookup key = some row →
    (∀ ws ∈ pass.loaded, ws.key ≠ key) → ¬ (pass.call.prune = true ∧ key ∈ pass.stale) →
    entry.1.manifest.Declares name → row.manifest.Declares name → entry.2.IsHeld name
  since : ∀ entry ∈ pass.passed, ∀ name, entry.1.manifest.Declares name → ¬ entry.2.IsHeld name →
    ∀ row, db.hosted.table.lookup name = some row →
      row.ownedBy entry.1.repository entry.1.name = true ∨
        pass.call.prune = true ∧ (row.repository, row.workspace) ∈ pass.stale

/-- The condition on a step: a transaction is settled, and a job takes no free name that another
published workspace declares. -/
def Registry.Safe (s : Registry) : SyncAction → Prop
  | .start _ => True
  | .check => True
  | .finish => ∀ pass, s.pass = some pass → pass.pending = [] → pass.call.dryRun = false →
      (∃ db, pass.call.transaction pass.loaded pass.stale s.db = .ok db) → pass.Settled s.db
  | .register service =>
      s.db.hosted.isFree service.repository service.workspace service.name = true →
      ∀ key row, s.db.workspaces.lookup key = some row → row.manifest.Declares service.name →
        key = (service.repository, service.workspace)

/-- The sync that runs has only loaded workspaces of its tree, and gated those that passed. -/
structure Pass.Sound (pass : Pass) : Prop where
  loads : ∀ ws, ws ∈ pass.loaded ∨ ws ∈ pass.pending →
    ∃ entry ∈ pass.call.tree.workspaces, pass.call.load entry = .ok ws
  gated : ∀ entry ∈ pass.passed, pass.call.gateOf entry.2 entry.1 = .ok ()
  stale : ∀ key ∈ pass.stale, key ∉ pass.call.onDisk

/-- What the gate saw held is held still, and was held at each later look. -/
structure Pass.Kept (pass : Pass) (hosted : Hosted) : Prop where
  now : ∀ entry ∈ pass.passed, entry.2.Keeps hosted
  looks : pass.passed.Pairwise fun entry later ↦ entry.2.Keeps later.2

/-- The sync that runs, if one does, is sound, and no holder has changed while it ran. -/
def Registry.Sound (s : Registry) : Prop :=
  ∀ pass, s.pass = some pass → pass.Sound ∧ pass.Kept s.db.hosted

variable {pass : Pass} {db : Database} {s t : Registry} {name : Str} {key : Str × Str}
  {row : WorkspaceRow} {ws other : LoadedWorkspace}

/-- Every name that a gated workspace declares was free, or its own, when the gate looked. -/
theorem isFree_of_gateOf {call : SyncCall} {hosted : Hosted} (hname : ws.manifest.name = ws.name)
    (hgate : call.gateOf hosted ws = .ok ()) (h : ws.manifest.Declares name) :
    hosted.isFree ws.repository ws.name name = true := by
  obtain ⟨out, hout, hservice, rfl⟩ := h
  obtain ⟨_, -, hgate⟩ := bind_eq_ok.1 hgate
  obtain ⟨_, hservices, -⟩ := bind_eq_ok.1 hgate
  obtain hno | ⟨_, _, hfree⟩ := checkServices_eq_ok.1 hservices out hout
  · rw [hservice] at hno
    cases hno
  · rwa [hname] at hfree

/-- A statement of `register` keeps what the gate saw. -/
theorem Pass.Kept.upsert {hosted : Hosted} (h : pass.Kept hosted) (service : Service) :
    pass.Kept (hosted.upsert service).1 where
  now entry hentry name key hholds :=
    hosted.keeps_upsert service name key (h.now entry hentry name key hholds)
  looks := h.looks

theorem Pass.Kept.admitted {hosted : Hosted} {call : SyncCall} {stale : List (Str × Str)}
    {rest : List LoadedWorkspace} {passed : List (LoadedWorkspace × Hosted)}
    (h : Pass.Kept ⟨call, stale, ws :: rest, passed⟩ hosted) :
    Pass.Kept ⟨call, stale, rest, passed ++ [(ws, hosted)]⟩ hosted where
  now entry hentry := by
    obtain hentry | hentry := List.mem_append.1 hentry
    · exact h.now entry hentry
    · rw [List.mem_singleton.1 hentry]
      exact fun _ _ hholds ↦ hholds
  looks := by
    refine List.pairwise_append.2
      ⟨h.looks, List.pairwise_singleton _ _, fun entry hentry later hlater ↦ ?_⟩
    rw [List.mem_singleton.1 hlater]
    exact h.now entry hentry

namespace Pass.Sound

/-- Under one key at most one workspace is loaded. -/
theorem unique (h : pass.Sound) (hws : ws ∈ pass.loaded) (hother : other ∈ pass.loaded)
    (hkey : other.key = ws.key) : other = ws := by
  obtain ⟨entry, hentry, hload⟩ := h.loads ws (.inl hws)
  obtain ⟨entry', hentry', hload'⟩ := h.loads other (.inl hother)
  have hpublishes {e : Str × WorkspaceDir} {w : LoadedWorkspace} (hw : pass.call.load e = .ok w) :
      w.key = (e.1, e.2.name) := by
    obtain ⟨hrepository, hdir⟩ := loadWorkspace_eq_ok hw
    rw [LoadedWorkspace.key, LoadedWorkspace.name, hrepository, hdir]
  rw [hpublishes hload, hpublishes hload'] at hkey
  rw [Tree.workspaces_injective hentry' hentry hkey, hload] at hload'
  exact (Except.ok.inj hload').symm

/-- What is loaded is not stale. -/
theorem not_stale (h : pass.Sound) (hws : ws ∈ pass.loaded) : ws.key ∉ pass.stale := by
  intro hstale
  obtain ⟨entry, hentry, hload⟩ := h.loads ws (.inl hws)
  obtain ⟨hrepository, hdir⟩ := loadWorkspace_eq_ok hload
  refine h.stale _ hstale (List.mem_map.2 ⟨entry, hentry, ?_⟩)
  rw [LoadedWorkspace.key, LoadedWorkspace.name, hrepository, hdir]

end Pass.Sound

/-! ## What a transaction leaves -/

def Pass.after (pass : Pass) (db : Database) : Database :=
  pass.call.written pass.loaded pass.stale db

/-- A workspace that passed has its new row. -/
theorem Pass.Sound.lookup_after (h : pass.Sound) (hws : ws ∈ pass.loaded) :
    (pass.after db).workspaces.lookup ws.key = some (pass.call.row ws) := by
  rw [Pass.after, SyncCall.lookup_written, if_neg fun hpruned ↦ h.not_stale hws hpruned.2]
  exact SyncCall.lookup_writeWorkspaces_mem hws (fun other hother ↦ h.unique hws hother) _

/-- A workspace that stays keeps its row. -/
theorem Pass.lookup_after_of_ne (hkey : ∀ ws ∈ pass.loaded, ws.key ≠ key)
    (hstale : ¬ (pass.call.prune = true ∧ key ∈ pass.stale)) :
    (pass.after db).workspaces.lookup key = db.workspaces.lookup key := by
  rw [Pass.after, SyncCall.lookup_written, if_neg hstale,
    SyncCall.lookup_writeWorkspaces_of_ne hkey, SyncCall.visible_workspaces]

/-- Every row of the result is of a workspace that passed, or of one that stays. -/
theorem Pass.Sound.of_lookup_after (h : pass.Sound)
    (hrow : (pass.after db).workspaces.lookup key = some row) :
    (∃ ws ∈ pass.loaded, ws.key = key ∧ row = pass.call.row ws) ∨
      (∀ ws ∈ pass.loaded, ws.key ≠ key) ∧ ¬ (pass.call.prune = true ∧ key ∈ pass.stale) ∧
        db.workspaces.lookup key = some row := by
  by_cases hkey : ∃ ws ∈ pass.loaded, ws.key = key
  · obtain ⟨ws, hws, rfl⟩ := hkey
    rw [h.lookup_after hws] at hrow
    exact .inl ⟨ws, hws, rfl, (Option.some.inj hrow).symm⟩
  · push Not at hkey
    have hstale : ¬ (pass.call.prune = true ∧ key ∈ pass.stale) := fun hstale ↦ by
      rw [Pass.after, SyncCall.lookup_written, if_pos hstale] at hrow
      cases hrow
    exact .inr ⟨hkey, hstale, Pass.lookup_after_of_ne hkey hstale ▸ hrow⟩

/-- A name is free after the transaction just when its row was the workspace's, or is pruned. -/
theorem Pass.isFree_after {repository workspace : Str} :
    (pass.after db).hosted.isFree repository workspace name = true ↔
      ∀ row, db.hosted.table.lookup name = some row → row.ownedBy repository workspace = true ∨
        pass.call.prune = true ∧ (row.repository, row.workspace) ∈ pass.stale := by
  have hfree {hosted : Hosted} : hosted.isFree repository workspace name = true ↔
      ∀ row, hosted.table.lookup name = some row → row.ownedBy repository workspace = true := by
    unfold Hosted.isFree
    rw [Option.all_eq_true]
  rw [hfree]
  refine forall_congr' fun row ↦ ?_
  rw [Pass.after, SyncCall.hosted_written, and_imp, or_comm]
  exact imp_congr_right fun _ ↦ imp_iff_not_or.trans (or_congr_left not_not)

/-! ## One step -/

/-- What passed the gate found the names it declares free, or its own. -/
theorem Pass.Sound.isFree (hpass : pass.Sound) {entry : LoadedWorkspace × Hosted}
    (hentry : entry ∈ pass.passed) (hname : entry.1.manifest.Declares name) :
    entry.2.isFree entry.1.repository entry.1.name name = true := by
  obtain ⟨_, _, hload⟩ := hpass.loads entry.1 (.inl (List.mem_map_of_mem hentry))
  exact isFree_of_gateOf (loadWorkspace_name hload) (hpass.gated entry hentry) hname

/-- Of two workspaces that declare a name which was held at the first look one is refused. -/
theorem Pass.Settled.unique (hpass : pass.Sound) (hkept : pass.Kept db.hosted)
    (h : pass.Settled db) (hws : ws ∈ pass.loaded) (hother : other ∈ pass.loaded)
    (hname : ws.manifest.Declares name) (hname' : other.manifest.Declares name) :
    ws.key = other.key := by
  have hdistinct : pass.passed.Pairwise fun a b ↦ a.1.key ≠ b.1.key → ∀ name,
      a.1.manifest.Declares name → ¬ b.1.manifest.Declares name := by
    refine (h.together.and hkept.looks).imp_of_mem ?_
    rintro a b ha hb ⟨htogether, hkeeps⟩ hne name hname hname'
    have hfirst := (htogether hne name hname hname').holds (hpass.isFree ha hname)
    exact hne ((hkeeps _ _ hfirst).of_isFree (hpass.isFree hb hname')).symm
  have hsymm : Std.Symm fun a b : LoadedWorkspace × Hosted ↦ a.1.key ≠ b.1.key → ∀ name,
      a.1.manifest.Declares name → ¬ b.1.manifest.Declares name :=
    ⟨fun a b hab hne name hb ha ↦ hab hne.symm name ha hb⟩
  obtain ⟨entry, hentry, rfl⟩ := List.mem_map.1 hws
  obtain ⟨later, hlater, rfl⟩ := List.mem_map.1 hother
  by_contra hne
  have hentries : entry ≠ later := fun heq ↦ hne (by rw [heq])
  exact hdistinct.forall hentry hlater hentries hne name hname hname'

/-- The gate refuses a name that a workspace which stays held when it looked. -/
theorem Pass.Settled.not_declares (hpass : pass.Sound) (hkept : pass.Kept db.hosted)
    (hdb : db.Distinct) (h : pass.Settled db) (hws : ws ∈ pass.loaded)
    (hname : ws.manifest.Declares name) (hkey : ∀ ws ∈ pass.loaded, ws.key ≠ key)
    (hstale : ¬ (pass.call.prune = true ∧ key ∈ pass.stale))
    (hrow : db.workspaces.lookup key = some row) : ¬ row.manifest.Declares name := by
  intro hname'
  obtain ⟨entry, hentry, rfl⟩ := List.mem_map.1 hws
  have hheld := h.staying entry hentry key row name hrow hkey hstale hname hname'
  have hholds := hkept.now entry hentry _ _ (hheld.holds (hpass.isFree hentry hname))
  exact hkey _ hws (hholds.of_isFree (hdb.free key row name hrow hname')).symm

/-- A settled transaction keeps the names distinct. -/
theorem Pass.Settled.distinct (hpass : pass.Sound) (hkept : pass.Kept db.hosted)
    (hdb : db.Distinct) (h : pass.Settled db) : (pass.after db).Distinct := by
  constructor
  · intro key other row row' name hrow hrow' hname hname'
    obtain ⟨ws, hws, rfl, rfl⟩ | ⟨hkey, hstale, hrow⟩ := hpass.of_lookup_after hrow <;>
      obtain ⟨ws', hws', rfl, rfl⟩ | ⟨hkey', hstale', hrow'⟩ := hpass.of_lookup_after hrow'
    · exact h.unique hpass hkept hws hws' hname hname'
    · exact absurd hname' (h.not_declares hpass hkept hdb hws hname hkey' hstale' hrow')
    · exact absurd hname (h.not_declares hpass hkept hdb hws' hname' hkey hstale hrow)
    · exact hdb.unique _ _ _ _ _ hrow hrow' hname hname'
  · intro key row name hrow hname
    rw [Pass.isFree_after]
    intro held hheld
    obtain ⟨ws, hws, rfl, rfl⟩ | ⟨_, _, hrow⟩ := hpass.of_lookup_after hrow
    · obtain ⟨entry, hentry, rfl⟩ := List.mem_map.1 hws
      by_cases hseen : entry.2.IsHeld name
      · have hholds := hseen.holds (hpass.isFree hentry hname)
        obtain ⟨now, hnow, howned⟩ := hkept.now entry hentry _ _ hholds
        rw [hheld, Option.some.injEq] at hnow
        exact .inl (hnow ▸ howned)
      · exact h.since entry hentry name hname hseen held hheld
    · refine .inl ?_
      have hfree := hdb.free key row name hrow hname
      rw [Hosted.isFree, hheld] at hfree
      exact hfree

/-- A transaction that is not settled breaks it. -/
theorem Pass.Sound.settled (hpass : pass.Sound) (hafter : (pass.after db).Distinct) :
    pass.Settled db := by
  have hloaded {entry : LoadedWorkspace × Hosted} (h : entry ∈ pass.passed) :
      entry.1 ∈ pass.loaded := List.mem_map_of_mem h
  constructor
  · refine List.pairwise_of_forall_mem_list fun a ha b hb hne name hname hname' ↦ ?_
    exact absurd (hafter.unique _ _ _ _ name (hpass.lookup_after (hloaded ha))
      (hpass.lookup_after (hloaded hb)) hname hname') hne
  · intro entry hentry key row name hrow hkey hstale hname hname'
    have hlookup : (pass.after db).workspaces.lookup key = some row :=
      (Pass.lookup_after_of_ne hkey hstale).trans hrow
    exact absurd (hafter.unique _ _ _ _ name (hpass.lookup_after (hloaded hentry)) hlookup hname
      hname') (hkey _ (hloaded hentry))
  · intro entry hentry name hname _ row hrow
    have hfree := hafter.free _ _ name (hpass.lookup_after (hloaded hentry)) hname
    exact Pass.isFree_after.1 hfree row hrow

/-- A job that registers a service keeps the names distinct just when it takes no free name that
another published workspace declares. -/
theorem register_distinct_iff {service : Service} (hdb : s.db.Distinct) :
    Database.Distinct { s.db with hosted := (s.db.hosted.upsert service).1 } ↔
      s.Safe (.register service) := by
  constructor
  · intro h hfree key row hrow hname
    obtain ⟨written, hwritten, howned, -, -⟩ := Hosted.lookup_write_self hfree
    have hheld := h.free key row service.name hrow hname
    rw [Hosted.isFree, show AList.lookup service.name _ = some written from hwritten] at hheld
    exact (Services.ownedBy_unique hheld howned).symm
  · intro hsafe
    refine ⟨hdb.unique, fun key row name hrow hname ↦ ?_⟩
    have hbefore := hdb.free key row name hrow hname
    change (AList.lookup name (s.db.hosted.write service).1).all _ = true
    by_cases hsame : name = service.name
    · subst hsame
      cases hfree : s.db.hosted.isFree service.repository service.workspace service.name with
      | true =>
        obtain ⟨written, hwritten, howned, -, -⟩ := Hosted.lookup_write_self hfree
        rw [hwritten, hsafe hfree key row hrow hname]
        exact howned
      | false =>
        rw [Hosted.write_refused hfree]
        exact hbefore
    · rw [Hosted.lookup_write_ne hsame]
      exact hbefore

/-- What a finished scan makes of a sync is sound. -/
theorem Pass.sound_start {call : SyncCall} {loaded : List LoadedWorkspace}
    {errors : List (Str × Str)}
    (h : scan call.loader call.tree.root call.tree.workspaces = .ok (loaded, errors)) :
    Pass.Sound ⟨call, call.findStale db, loaded, []⟩ where
  loads ws hws := ((SyncCall.mem_of_scan h).1 ws).1 (hws.resolve_left List.not_mem_nil)
  gated _ hentry := absurd hentry List.not_mem_nil
  stale _ hkey := (SyncCall.mem_findStale.1 hkey).2

section Check

variable {call : SyncCall} {stale : List (Str × Str)} {rest : List LoadedWorkspace}
  {passed : List (LoadedWorkspace × Hosted)}

/-- The gate keeps a sync sound where the next workspace fails. -/
theorem Pass.Sound.drop (h : Pass.Sound ⟨call, stale, ws :: rest, passed⟩) :
    Pass.Sound ⟨call, stale, rest, passed⟩ where
  loads w hw := h.loads w (hw.imp_right (List.mem_cons_of_mem _))
  gated := h.gated
  stale := h.stale

/-- The gate keeps a sync sound where the next workspace passes. -/
theorem Pass.Sound.admitted {hosted : Hosted} (h : Pass.Sound ⟨call, stale, ws :: rest, passed⟩)
    (hgate : call.gateOf hosted ws = .ok ()) :
    Pass.Sound ⟨call, stale, rest, passed ++ [(ws, hosted)]⟩ where
  loads w hw := by
    obtain hw | hw := hw
    · rw [Pass.loaded, List.map_append, List.mem_append] at hw
      obtain hw | hw := hw
      · exact h.loads w (.inl hw)
      · rw [List.mem_singleton.1 hw]
        exact h.loads ws (.inr List.mem_cons_self)
    · exact h.loads w (.inr (List.mem_cons_of_mem _ hw))
  gated entry hentry := by
    obtain hentry | hentry := List.mem_append.1 hentry
    · exact h.gated entry hentry
    · rw [List.mem_singleton.1 hentry]
      exact hgate
  stale := h.stale

end Check

/-- A sync that runs starts, goes on or ends soundly. -/
theorem sound_step {a : SyncAction} (hs : s.Sound) (h : syncMachine.step s a = some t) :
    t.Sound := by
  rw [syncMachine_step] at h
  cases a with
  | start call =>
    simp only [Registry.step] at h
    split at h
    · cases h
    · split at h
      · exact Option.some.inj h ▸ hs
      · next hscan =>
        obtain rfl := Option.some.inj h
        intro pass hpass
        obtain rfl := Option.some.inj hpass
        exact ⟨Pass.sound_start hscan, fun _ hentry ↦ absurd hentry List.not_mem_nil, .nil⟩
  | check =>
    simp only [Registry.step] at h
    split at h
    · next call stale ws rest passed hpass =>
      obtain ⟨hsound, hkept⟩ := hs _ hpass
      split at h
      · next hgate =>
        obtain rfl := Option.some.inj h
        intro pass hpass
        obtain rfl := Option.some.inj hpass
        exact ⟨hsound.admitted hgate, hkept.admitted⟩
      · next e _ =>
        obtain rfl := Option.some.inj h
        intro pass hpass
        cases he : isPublishError e with
        | true =>
          simp only [he, if_true] at hpass
          obtain rfl := Option.some.inj hpass
          exact ⟨hsound.drop, hkept.now, hkept.looks⟩
        | false => simp [he] at hpass
    · cases h
  | finish =>
    simp only [Registry.step] at h
    split at h
    · split at h
      · obtain rfl := Option.some.inj h
        exact nofun
      · split at h <;> obtain rfl := Option.some.inj h <;> exact nofun
    · cases h
  | register service =>
    obtain rfl := Option.some.inj h
    exact fun pass hpass ↦ ⟨(hs pass hpass).1, (hs pass hpass).2.upsert service⟩

/-- A step meets its condition just when it keeps the names distinct. -/
theorem distinct_step_iff {a : SyncAction} (hs : s.Sound) (hdb : s.db.Distinct)
    (h : syncMachine.step s a = some t) : t.db.Distinct ↔ s.Safe a := by
  rw [syncMachine_step] at h
  cases a with
  | start call =>
    simp only [Registry.step] at h
    split at h
    · cases h
    · split at h <;> obtain rfl := Option.some.inj h <;> exact iff_of_true hdb trivial
  | check =>
    simp only [Registry.step] at h
    split at h
    · split at h <;> obtain rfl := Option.some.inj h <;> exact iff_of_true hdb trivial
    · cases h
  | finish =>
    simp only [Registry.step] at h
    split at h
    · next call stale passed hpass =>
      split at h
      · next hdry =>
        obtain rfl := Option.some.inj h
        refine iff_of_true hdb fun pass hpass' _ hdry' ↦ ?_
        obtain rfl := Option.some.inj (hpass.symm.trans hpass')
        exact absurd (hdry.symm.trans hdry') (by decide)
      · next hdry =>
        split at h
        · next htransaction =>
          obtain rfl := Option.some.inj h
          refine iff_of_true hdb fun pass hpass' _ _ hok ↦ ?_
          obtain rfl := Option.some.inj (hpass.symm.trans hpass')
          obtain ⟨db, hdone⟩ := hok
          cases htransaction.symm.trans hdone
        · next db htransaction =>
          obtain rfl := Option.some.inj h
          obtain ⟨hsound, hkept⟩ := hs _ hpass
          have hafter : db = Pass.after ⟨call, stale, [], passed⟩ s.db :=
            (SyncCall.transaction_eq_ok.1 htransaction).2
          constructor
          · intro hdistinct pass hpass' _ _ _
            obtain rfl := Option.some.inj (hpass.symm.trans hpass')
            exact hsound.settled (hafter ▸ hdistinct)
          · intro hsafe
            have hsettled := hsafe _ hpass rfl (Bool.eq_false_of_not_eq_true hdry)
              ⟨_, htransaction⟩
            exact hafter ▸ hsettled.distinct hsound hkept hdb
    · cases h
  | register service =>
    obtain rfl := Option.some.inj h
    exact register_distinct_iff hdb

/-- Where the names are distinct, a job of a published workspace is refused no name that the
workspace declares. -/
theorem Database.Distinct.claims {service : Service} (hdb : db.Distinct)
    (hrow : db.workspaces.lookup (service.repository, service.workspace) = some row)
    (hname : row.manifest.Declares service.name) :
    (db.hosted.upsert service).2 = some service.name := by
  have hfree : (db.hosted.write service).2 = true :=
    Hosted.write_snd.trans (hdb.free _ row service.name hrow hname)
  rw [Hosted.upsert]
  exact if_pos hfree

/-! ## Runs -/

/-- One turn of the loop of `_apply_gate`. -/
theorem applyGate_cons {call : SyncCall} {hosted : Hosted} {rest : List LoadedWorkspace} :
    call.applyGate hosted (ws :: rest) =
      match call.gateOf hosted ws with
      | .ok () => (call.applyGate hosted rest).map fun found ↦ (ws :: found.1, found.2)
      | .error e =>
        if isPublishError e then
          (call.applyGate hosted rest).map fun found ↦
            (found.1, (label ws.repository ws.name, e.message) :: found.2)
        else .error e := by
  unfold SyncCall.applyGate
  rw [collect]
  have hpass : call.passOne hosted ws = (call.gateOf hosted ws).map fun _ ↦ ws := rfl
  rw [hpass]
  cases call.gateOf hosted ws with
  | ok _ => cases collect (call.passOne hosted) isPublishError rest <;> rfl
  | error e =>
    cases he : isPublishError e with
    | true =>
      simp only [Except.map, he, if_true]
      cases collect (call.passOne hosted) isPublishError rest <;> rfl
    | false =>
      simp only [Except.map, he]
      rfl

/-- Without a job in between, the steps of a gate are the loop of `_apply_gate`. -/
theorem exists_run_checks {call : SyncCall} {stale : List (Str × Str)}
    (pending : List LoadedWorkspace) (passed : List (LoadedWorkspace × Hosted)) :
    ∃ checks, syncMachine.run ⟨db, some ⟨call, stale, pending, passed⟩⟩ checks =
      match call.applyGate db.hosted pending with
      | .ok found =>
        some ⟨db, some ⟨call, stale, [], passed ++ found.1.map fun ws ↦ (ws, db.hosted)⟩⟩
      | .error _ => some ⟨db, none⟩ := by
  induction pending generalizing passed with
  | nil => exact ⟨[], by simp [SyncCall.applyGate, collect, pure, Except.pure, bind, Except.bind]⟩
  | cons ws rest ih =>
    rw [applyGate_cons]
    cases hgate : call.gateOf db.hosted ws with
    | ok _ =>
      obtain ⟨checks, hchecks⟩ := ih (passed ++ [(ws, db.hosted)])
      refine ⟨.check :: checks, ?_⟩
      rw [Machine.run_cons, syncMachine_step]
      simp only [Registry.step, hgate, Option.bind_some, hchecks]
      cases call.applyGate db.hosted rest with
      | ok found => simp [Except.map]
      | error e => rfl
    | error e =>
      cases he : isPublishError e with
      | true =>
        obtain ⟨checks, hchecks⟩ := ih passed
        refine ⟨.check :: checks, ?_⟩
        rw [Machine.run_cons, syncMachine_step]
        simp only [Registry.step, hgate, he, if_true, Option.bind_some, hchecks]
        cases call.applyGate db.hosted rest <;> rfl
      | false =>
        refine ⟨[.check], ?_⟩
        rw [Machine.run_cons, syncMachine_step]
        simp [Registry.step, hgate, he]

/-- A sync that no job interrupts is a run, which leaves what `sync` leaves. -/
theorem exists_run_sync (call : SyncCall) (db : Database) :
    ∃ actions, syncMachine.run ⟨db, none⟩ actions = some ⟨(call.sync db).2, none⟩ := by
  unfold SyncCall.sync
  cases hscan : scan call.loader call.tree.root call.tree.workspaces with
  | error e =>
    refine ⟨[.start call], ?_⟩
    rw [Machine.run_cons, syncMachine_step]
    simp only [Registry.step, hscan, Option.bind_some, Machine.run_nil]
  | ok scanned =>
    obtain ⟨loaded, errors⟩ := scanned
    obtain ⟨checks, hchecks⟩ := @exists_run_checks db call (call.findStale db) loaded []
    have hstart (rest : List SyncAction) :
        syncMachine.run ⟨db, none⟩ (.start call :: rest) =
          syncMachine.run ⟨db, some ⟨call, call.findStale db, loaded, []⟩⟩ rest := by
      rw [Machine.run_cons, syncMachine_step]
      simp only [Registry.step, hscan, Option.bind_some]
    dsimp only
    cases hgate : call.applyGate db.hosted loaded with
    | error e =>
      rw [hgate] at hchecks
      exact ⟨.start call :: checks, (hstart checks).trans hchecks⟩
    | ok found =>
      rw [hgate] at hchecks
      refine ⟨.start call :: (checks ++ [.finish]), (hstart _).trans ?_⟩
      rw [Machine.run_append, hchecks, Option.bind_some, Machine.run_cons, syncMachine_step]
      have hpassed : (found.1.map fun ws ↦ (ws, db.hosted)).map Prod.fst = found.1 := by
        rw [List.map_map]
        exact List.map_id _
      simp only [Registry.step, List.nil_append, hpassed]
      cases call.dryRun with
      | true => rfl
      | false =>
        cases call.transaction found.1 (call.findStale db) db with
        | error e => simp
        | ok after => simp

/-- From a database whose names are distinct, the names stay distinct throughout a run just when
every step meets its condition. -/
theorem distinct_throughout_iff (s t : Registry) (actions : List SyncAction)
    (hrun : syncMachine.run s actions = some t) (hstart : s.pass = none) (hdb : s.db.Distinct) :
    syncMachine.Always (fun s ↦ s.db.Distinct) s actions ↔
      syncMachine.Meets Registry.Safe s actions := by
  have hsound : s.Sound := fun pass hpass ↦ by
    rw [hstart] at hpass
    cases hpass
  refine syncMachine.always_iff_meets (I := fun s ↦ s.Sound ∧ s.db.Distinct) (fun _ h ↦ h.2)
    (fun s a t h hsafe hstep ↦ ?_) (fun s a t h hunsafe hstep ↦ ?_) hrun ⟨hsound, hdb⟩
  · exact ⟨sound_step h.1 hstep, (distinct_step_iff h.1 h.2 hstep).2 hsafe⟩
  · exact fun hdistinct ↦ hunsafe ((distinct_step_iff h.1 h.2 hstep).1 hdistinct)

/-! ## A sync in which two workspaces want one name -/

def bytesOf (text : String) : List UInt8 := text.toList.map fun c ↦ c.toNat.toUInt8

def appManifest (name : Str) : WorkspaceManifest where
  name := name
  version := str "1"
  outputs := [⟨str "app", str "service/static", false⟩]
  connections := []

/-- The directory of a workspace that declares the service `app`. -/
def appDir (name : Str) (manifest : String) : WorkspaceDir where
  name := name
  manifest := .content (bytesOf manifest)
  entrypoint := .content (bytesOf "async def run(params, emit, connections): pass")
  doc := .content (bytesOf ("## Purpose\nx\n## Dependencies\nx\n## Dependents\nx\n" ++
    "## Failure modes\nx\n## Behavioral contracts\nx\n"))

def blogDir : WorkspaceDir := appDir (str "blog")
  "\x7b\"name\":\"blog\",\"version\":\"1\",\"outputs\":[\x7b\"name\":\"app\",\"type\":\"service/static\"\x7d]\x7d"

def shopDir : WorkspaceDir := appDir (str "shop")
  "\x7b\"name\":\"shop\",\"version\":\"1\",\"outputs\":[\x7b\"name\":\"app\",\"type\":\"service/static\"\x7d]\x7d"

/-- The manifests of the two directories, and the only statement of their entrypoints. -/
def appLoader : Loader where
  validate raw :=
    match raw with
    | .obj fields =>
      match Json.fieldD fields (str "name") .null with
      | .text name => .ok (appManifest name)
      | _ => .error (.raised .validationError (str "name: Field required"))
    | _ => .error (.raised .validationError (str "Input should be an object"))
  parse _ := .ok [.function (str "run") true runSignature]
  display := ⟨fun _ ↦ [], fun _ ↦ false⟩
  depth := 1000

def appSync : SyncCall where
  tree := ⟨str "/repositories", [⟨str "web", [blogDir, shopDir], by decide⟩], by decide⟩
  loader := appLoader
  outcomes := ⟨fun _ ↦ none, fun _ ↦ .ok (), fun _ ↦ .ok ()⟩
  statements := ⟨fun _ ↦ none, fun _ ↦ none, fun _ ↦ none⟩
  publisher := str "local"
  time := 1
  dryRun := false
  prune := false

def appWorkspace (dir : WorkspaceDir) : LoadedWorkspace := ⟨str "web", dir, appManifest dir.name⟩

theorem scan_appSync : scan appSync.loader appSync.tree.root appSync.tree.workspaces =
    .ok ([appWorkspace blogDir, appWorkspace shopDir], []) := by
  have hworkspaces : appSync.tree.workspaces = [(str "web", blogDir), (str "web", shopDir)] := by
    have hweb : isVisible (str "web") = true := by decide
    have hblog : isVisible blogDir.name = true := by decide
    have hshop : isVisible shopDir.name = true := by decide
    have hsorted : [blogDir, shopDir].Pairwise fun a b ↦ decide (a.name ≤ b.name) = true := by
      decide
    have hdirs : visibleDirs WorkspaceDir.name [blogDir, shopDir] = [blogDir, shopDir] := by
      simp only [visibleDirs, List.filter_cons, hblog, hshop, if_true, List.filter_nil]
      exact List.mergeSort_of_pairwise hsorted
    have hrepositories : appSync.tree.visible = appSync.tree.repositories := by
      simp [Tree.visible, visibleDirs, appSync, hweb]
    rw [Tree.workspaces, hrepositories]
    simp [appSync, hdirs]
  rw [hworkspaces]
  decide +kernel

def noDatabase : Database := ⟨∅, ∅, ⟨∅, 0, nofun⟩⟩

def appRun : List SyncAction := [.start appSync, .check, .check, .finish]

/-- The two workspaces, which passed the gate one after the other. -/
def appPass : Pass where
  call := appSync
  stale := []
  pending := []
  passed := [(appWorkspace blogDir, noDatabase.hosted), (appWorkspace shopDir, noDatabase.hosted)]

theorem gate_appWorkspace :
    appSync.gateOf noDatabase.hosted (appWorkspace blogDir) = .ok () ∧
      appSync.gateOf noDatabase.hosted (appWorkspace shopDir) = .ok () := by
  constructor <;> decide +kernel

theorem run_appRun :
    syncMachine.run ⟨noDatabase, none⟩ appRun = some ⟨appPass.after noDatabase, none⟩ := by
  have hstart : syncMachine.step ⟨noDatabase, none⟩ (.start appSync) = some ⟨noDatabase,
      some ⟨appSync, [], [appWorkspace blogDir, appWorkspace shopDir], []⟩⟩ := by
    rw [syncMachine_step]
    simp only [Registry.step, scan_appSync]
    rfl
  have hcheck (ws : LoadedWorkspace) (rest : List LoadedWorkspace)
      (passed : List (LoadedWorkspace × Hosted))
      (h : appSync.gateOf noDatabase.hosted ws = .ok ()) :
      syncMachine.step ⟨noDatabase, some ⟨appSync, [], ws :: rest, passed⟩⟩ .check =
        some ⟨noDatabase, some ⟨appSync, [], rest, passed ++ [(ws, noDatabase.hosted)]⟩⟩ := by
    rw [syncMachine_step]
    simp only [Registry.step, h]
  have hfinish : syncMachine.step ⟨noDatabase, some appPass⟩ .finish =
      some ⟨appPass.after noDatabase, none⟩ := by
    have htransaction : appSync.transaction appPass.loaded [] noDatabase =
        .ok (appPass.after noDatabase) :=
      SyncCall.transaction_eq_ok.2 ⟨⟨fun _ _ ↦ rfl, fun _ _ ↦ rfl, nofun⟩, rfl⟩
    rw [syncMachine_step]
    have hstep : Registry.step ⟨noDatabase, some appPass⟩ .finish =
        match appSync.transaction appPass.loaded [] noDatabase with
        | .error _ => some ⟨noDatabase, none⟩
        | .ok db => some (Registry.mk db none) := rfl
    rw [hstep, htransaction]
  rw [appRun, Machine.run_cons, hstart, Option.bind_some, Machine.run_cons,
    hcheck _ _ _ gate_appWorkspace.1, Option.bind_some, Machine.run_cons,
    hcheck _ _ _ gate_appWorkspace.2, Option.bind_some, Machine.run_cons]
  exact congrArg (fun o ↦ o.bind fun t ↦ syncMachine.run t []) hfinish

theorem noDatabase_distinct : noDatabase.Distinct := ⟨nofun, nofun⟩

/-- The gate passes both workspaces, neither of which has run, and both are published. -/
theorem appRun_not_distinct : ¬ ∀ (actions : List SyncAction) t,
    syncMachine.run ⟨noDatabase, none⟩ actions = some t → t.db.Distinct := by
  intro h
  have hstart : Pass.Sound ⟨appSync, appSync.findStale noDatabase,
      [appWorkspace blogDir, appWorkspace shopDir], []⟩ := Pass.sound_start scan_appSync
  have hblogSound := hstart.admitted gate_appWorkspace.1
  have hsound : appPass.Sound := hblogSound.admitted gate_appWorkspace.2
  have hlookup (dir : WorkspaceDir) (hdir : appWorkspace dir ∈ appPass.loaded) :
      (appPass.after noDatabase).workspaces.lookup (appWorkspace dir).key =
        some (appSync.row (appWorkspace dir)) := hsound.lookup_after hdir
  have hblog := hlookup blogDir (.head _)
  have hshop := hlookup shopDir (.tail _ (.head _))
  have hdeclares (dir : WorkspaceDir) :
      (appSync.row (appWorkspace dir)).manifest.Declares (str "app") :=
    ⟨⟨str "app", str "service/static", false⟩, .head _, by decide, rfl⟩
  have hkey := (h appRun _ run_appRun).unique _ _ _ _ _ hblog hshop (hdeclares _) (hdeclares _)
  exact absurd hkey (by decide)

/-- A job of the blog, which is not published, registers its service. -/
def blogService : Service where
  name := str "app"
  type := str "service/static"
  repository := str "web"
  workspace := str "blog"
  sourceJob := str "1"
  path := [str "srv"]

def heldRun : List SyncAction := .register blogService :: appRun

/-- Where the blog holds the name the gate lets the blog pass and refuses the shop. -/
theorem gate_held :
    appSync.gateOf (noDatabase.hosted.upsert blogService).1 (appWorkspace blogDir) = .ok () ∧
      ∃ e, appSync.gateOf (noDatabase.hosted.upsert blogService).1 (appWorkspace shopDir) =
        .error e ∧ isPublishError e = true := by
  refine ⟨by decide +kernel, ?_⟩
  have hrefused : (match appSync.gateOf (noDatabase.hosted.upsert blogService).1
      (appWorkspace shopDir) with
    | .error e => isPublishError e
    | .ok _ => false) = true := by decide +kernel
  split at hrefused
  · next e he => exact ⟨e, he, hrefused⟩
  · cases hrefused

theorem distinct_throughout_iff_heldRun :
    ∃ t, syncMachine.run ⟨noDatabase, none⟩ heldRun = some t ∧
      (syncMachine.Always (fun s ↦ s.db.Distinct) ⟨noDatabase, none⟩ heldRun ↔
        syncMachine.Meets Registry.Safe ⟨noDatabase, none⟩ heldRun) := by
  have hrun : ∃ t, syncMachine.run ⟨noDatabase, none⟩ heldRun = some t := by
    obtain ⟨hblog, e, hshop, he⟩ := gate_held
    rw [heldRun, appRun, Machine.run_cons, syncMachine_step]
    simp only [Registry.step, Option.bind_some]
    rw [Machine.run_cons, syncMachine_step]
    simp only [Registry.step, scan_appSync, Option.bind_some]
    rw [Machine.run_cons, syncMachine_step]
    simp only [Registry.step, hblog, Option.bind_some]
    rw [Machine.run_cons, syncMachine_step]
    simp only [Registry.step, hshop, he, if_true, Option.bind_some]
    rw [Machine.run_cons, syncMachine_step]
    simp only [Registry.step]
    split_ifs
    · exact ⟨_, rfl⟩
    · split <;> exact ⟨_, rfl⟩
  obtain ⟨t, ht⟩ := hrun
  exact ⟨t, ht, distinct_throughout_iff _ _ _ ht rfl noDatabase_distinct⟩

end DatumSync.Repository
