import DatumSync.Api.Repositories
import DatumSync.Foundation.ReadCommitted

/-!
# Delivering finished jobs to automations

Any number of `consider` calls and of API requests that create, replace, toggle and delete
automations, with their statements in any order.  What the database refuses, what an action does and
whether a process ends are part of the steps.  `_context` and the two statements that keep the books
of a firing stand outside of the `try` that guards the actions.
-/

namespace DatumSync.Automations

open Python Jobs Foundation Api

/-- A row of `automations` and who wrote its document last. -/
structure Entry where
  id : ℕ
  automation : Automation
  writer : Principal

/-- A claimed job as `consider` read it, and the automations it selected. -/
structure Claim where
  job : ℕ
  row : Job
  selected : List Entry

inductive ConsiderStage where
  | idle
  | read (job : ℕ) (row : Job)
  | claimed (job : ℕ) (row : Job)
  /-- at the head of the loop -/
  | firing (claim : Claim) (pending : List Entry)
  /-- in the loop of `_fire` -/
  | acting (claim : Claim) (current : Entry) (left : List Action) (pending : List Entry)
  /-- between the two statements after it -/
  | recorded (claim : Claim) (current : Entry) (pending : List Entry)
  | returned (claim : Claim)
  /-- An exception left `_fire` for the automation `current`. -/
  | raised (claim : Claim) (current : Entry)
  /-- It had nothing to do, or its process has ended. -/
  | over

/-- What an API request does to an automation it may see. -/
inductive Edit where
  | replace (config : Config)
  | toggle (enabled : Bool)
  | delete

/-- A request past its checks. -/
structure PendingEdit where
  caller : Principal
  id : ℕ
  edit : Edit

/-- A call of `_fire`: for which automation and job, and by whom its document was written. -/
structure Firing where
  automation : ℕ
  job : ℕ
  row : Job
  writer : Principal

/-- A job an action has submitted, and who wrote the document. -/
structure Submission where
  writer : Principal
  job : Job

structure Deliveries where
  clock : ℕ := 0
  automations : List Entry := []
  nextId : ℕ := 0
  jobs : List Job := []
  edits : ℕ → Option PendingEdit := fun _ ↦ none
  considers : ℕ → ConsiderStage := fun _ ↦ .idle
  /-- The firings so far, oldest first. -/
  fired : List Firing := []
  /-- The jobs that actions have submitted, oldest first. -/
  submitted : List Submission := []

/-- The body of an API request about one automation. -/
inductive Change where
  | replace (text : Str)
  | toggle (enabled : Bool)
  | delete

/-- The statements of the requests and of the `consider` calls.  `stores` is whether the database
takes a row, whose name has to be free and whose document has to be JSON it can hold. -/
inductive DeliveryAction where
  | tick
  /-- A job is submitted from outside. -/
  | submit (repository workspace : Str) (triggeredBy : Option Str)
  /-- A job ends. -/
  | complete (job : ℕ) (status : JobStatus)
  | create (caller : Principal) (text : Str) (stores : Bool)
  | request (u : ℕ) (caller : Principal) (id : ℕ) (change : Change)
  | write (u : ℕ) (stores : Bool)
  | read (c : ℕ) (job : ℕ)
  | claim (c : ℕ)
  /-- The `SELECT` of the automations, which answers in any order. -/
  | select (c : ℕ) (order : List ℕ)
  /-- The next automation of the loop; `context` is whether `_context` returns. -/
  | next (c : ℕ) (context : Bool)
  /-- The next action; `submits` is whether `jobs.submit` inserts its row. -/
  | act (c : ℕ) (submits : Bool)
  | record (c : ℕ) (stores : Bool)
  | touch (c : ℕ) (stores : Bool)
  | finish (c : ℕ)
  /-- The process ends, or the database fails outside of `_fire`. -/
  | die (c : ℕ)

variable (view : Rendering) (safeLoad : Str → Except Str Yaml)

/-! ## The API -/

/-- `not isinstance(text, str) or not text.strip()`, `parse` and `_require_automation_scope` -/
def checkDocument (caller : Principal) (text : Str) : Except Exc Config :=
  if (strip text).isEmpty then
    .error (.api 400 (str "INVALID_PARAMETER") (str "'yaml' is required") [])
  else match parse view.toShown safeLoad text with
    | .error e =>
      if e.isA .automationError then
        .error (.api 400 (str "INVALID_PARAMETER") e.message [])
      else .error e
    | .ok config => do
      requireAutomationScope view caller config
      return config

def Deliveries.insert (s : Deliveries) (caller : Principal) (config : Config) : Deliveries :=
  { s with
    automations := s.automations ++
      [⟨s.nextId, ⟨config.name, config, config.enabled, s.clock⟩, caller⟩]
    nextId := s.nextId + 1 }

def Deliveries.create (s : Deliveries) (caller : Principal) (text : Str) (stores : Bool) :
    Deliveries :=
  match checkDocument view safeLoad caller text with
  | .error _ => s
  | .ok config => if stores then s.insert caller config else s

def Deliveries.automationFor (s : Deliveries) (caller : Principal) (id : ℕ) : Except Exc Entry :=
  match s.automations.find? fun stored ↦ stored.id == id with
  | none => .error (.api 404 (str "NOT_FOUND") (str "no automation " ++ decimal id) [])
  | some stored => do
    requireAutomationScope view caller stored.automation.config
    return stored

/-- `replace_automation`, `toggle_automation` and `delete_automation` up to their write -/
def Deliveries.check (s : Deliveries) (caller : Principal) (id : ℕ) (change : Change) :
    Except Exc Edit :=
  match change with
  | .replace text =>
    if (strip text).isEmpty then
      .error (.api 400 (str "INVALID_PARAMETER") (str "'yaml' is required") [])
    else do
      let _ ← s.automationFor view caller id
      let config ← checkDocument view safeLoad caller text
      return .replace config
  | .toggle enabled => do
    let _ ← s.automationFor view caller id
    return .toggle enabled
  | .delete => do
    let _ ← s.automationFor view caller id
    return .delete

def Deliveries.setEdit (s : Deliveries) (u : ℕ) (pending : Option PendingEdit) : Deliveries :=
  { s with edits := Function.update s.edits u pending }

def Deliveries.request (s : Deliveries) (u : ℕ) (caller : Principal) (id : ℕ) (change : Change) :
    Option Deliveries :=
  match s.edits u with
  | some _ => none
  | none =>
    match s.check view safeLoad caller id change with
    | .error _ => some s
    | .ok edit => some (s.setEdit u (some ⟨caller, id, edit⟩))

/-- The `UPDATE` of `replace` and `set_enabled` on a row, by its id. -/
def PendingEdit.apply (pending : PendingEdit) (stored : Entry) : Entry :=
  if stored.id = pending.id then
    match pending.edit with
    | .replace config =>
      { stored with
        automation := {
          name := config.name
          config := config
          enabled := config.enabled
          createdAt := stored.automation.createdAt }
        writer := pending.caller }
    | .toggle enabled => { stored with automation := { stored.automation with enabled } }
    | .delete => stored
  else stored

/-- The table after the `UPDATE` or the `DELETE` of a request. -/
def PendingEdit.applyAll (pending : PendingEdit) (automations : List Entry) : List Entry :=
  match pending.edit with
  | .delete => automations.filter fun stored ↦ stored.id != pending.id
  | _ => automations.map pending.apply

def Deliveries.write (s : Deliveries) (u : ℕ) (stores : Bool) : Option Deliveries :=
  match s.edits u with
  | none => none
  | some pending =>
    if stores then
      some { s.setEdit u none with automations := pending.applyAll s.automations }
    else some (s.setEdit u none)

/-! ## `consider` -/

/-- `WHERE enabled AND created_at <= $1` -/
def Entry.isSelected (stored : Entry) (row : Job) : Bool :=
  stored.automation.enabled && decide (stored.automation.createdAt ≤ row.completedAt)

/-- Whether the loop of `consider` calls `_fire` for an automation. -/
def Entry.isDue (stored : Entry) (row : Job) : Bool :=
  triggerMatches stored.automation.config.trigger row && !wouldLoop stored.automation.name row

def Deliveries.setConsider (s : Deliveries) (c : ℕ) (phase : ConsiderStage) : Deliveries :=
  { s with considers := Function.update s.considers c phase }

/-- The first `SELECT` of `consider` -/
def Deliveries.read (s : Deliveries) (c job : ℕ) : Option Deliveries :=
  match s.considers c with
  | .idle =>
    match s.jobs[job]? with
    | none => some (s.setConsider c .over)
    | some row =>
      if row.status.isTerminal then some (s.setConsider c (.read job row))
      else some (s.setConsider c .over)
  | _ => none

/-- `UPDATE jobs SET automations_at = now() WHERE id = $1 AND automations_at IS NULL` -/
def Deliveries.claim (s : Deliveries) (c : ℕ) : Option Deliveries :=
  match s.considers c with
  | .read job row =>
    match s.jobs[job]? with
    | none => some (s.setConsider c .over)
    | some current =>
      if current.considered then some (s.setConsider c .over)
      else some { s.setConsider c (.claimed job row) with
        jobs := s.jobs.set job { current with considered := true } }
  | _ => none

/-- `SELECT id, name, config FROM automations WHERE ...`, by the ids in the order of the answer. -/
def Deliveries.select (s : Deliveries) (c : ℕ) (order : List ℕ) : Option Deliveries :=
  match s.considers c with
  | .claimed job row =>
    if order.Perm ((s.automations.filter fun stored ↦ stored.isSelected row).map Entry.id) then
      let selected := order.filterMap fun id ↦ s.automations.find? fun stored ↦ stored.id == id
      some (s.setConsider c (.firing ⟨job, row, selected⟩ selected))
    else none
  | _ => none

/-- One turn of the loop of `consider`, up to the actions. -/
def Deliveries.next (s : Deliveries) (c : ℕ) (context : Bool) : Option Deliveries :=
  match s.considers c with
  | .firing claim (current :: pending) =>
    if !current.isDue claim.row then some (s.setConsider c (.firing claim pending))
    else if context then
      some { s.setConsider c (.acting claim current current.automation.config.actions pending) with
        fired := s.fired ++ [⟨current.id, claim.job, claim.row, current.writer⟩] }
    else some (s.setConsider c (.raised claim current))
  | _ => none

/-- `_perform`, whose exceptions `_fire` catches. -/
def Deliveries.act (s : Deliveries) (c : ℕ) (submits : Bool) : Option Deliveries :=
  match s.considers c with
  | .acting claim current (action :: left) pending =>
    let new := if submits then (Automations.submitted current.automation.name action).toList else []
    some { s.setConsider c (.acting claim current left pending) with
      jobs := s.jobs ++ new
      submitted := s.submitted ++ new.map (⟨current.writer, ·⟩) }
  | _ => none

/-- `INSERT INTO automation_runs`, which needs the automation's row. -/
def Deliveries.record (s : Deliveries) (c : ℕ) (stores : Bool) : Option Deliveries :=
  match s.considers c with
  | .acting claim current [] pending =>
    if stores ∧ current.id ∈ s.automations.map Entry.id then
      some (s.setConsider c (.recorded claim current pending))
    else some (s.setConsider c (.raised claim current))
  | _ => none

/-- `UPDATE automations SET last_fired = now(), last_error = $2` -/
def Deliveries.touch (s : Deliveries) (c : ℕ) (stores : Bool) : Option Deliveries :=
  match s.considers c with
  | .recorded claim current pending =>
    if stores then some (s.setConsider c (.firing claim pending))
    else some (s.setConsider c (.raised claim current))
  | _ => none

def Deliveries.finish (s : Deliveries) (c : ℕ) : Option Deliveries :=
  match s.considers c with
  | .firing claim [] => some (s.setConsider c (.returned claim))
  | _ => none

def Deliveries.die (s : Deliveries) (c : ℕ) : Option Deliveries :=
  match s.considers c with
  | .returned _ | .raised .. | .over => none
  | _ => some (s.setConsider c .over)

/-- A job ends once. -/
def Deliveries.complete (s : Deliveries) (job : ℕ) (status : JobStatus) : Option Deliveries :=
  match s.jobs[job]? with
  | none => none
  | some row =>
    if !row.status.isTerminal && status.isTerminal then
      some { s with jobs := s.jobs.set job { row with status, completedAt := s.clock } }
    else none

def deliveryMachine : Machine Deliveries DeliveryAction where
  step s
    | .tick => some { s with clock := s.clock + 1 }
    | .submit repository workspace triggeredBy =>
      some { s with jobs := s.jobs ++ [{ repository, workspace, status := .queued, triggeredBy }] }
    | .complete job status => s.complete job status
    | .create caller text stores => some (s.create view safeLoad caller text stores)
    | .request u caller id change => s.request view safeLoad u caller id change
    | .write u stores => s.write u stores
    | .read c job => s.read c job
    | .claim c => s.claim c
    | .select c order => s.select c order
    | .next c context => s.next c context
    | .act c submits => s.act c submits
    | .record c stores => s.record c stores
    | .touch c stores => s.touch c stores
    | .finish c => s.finish c
    | .die c => s.die c

/-! ## At most once, and isolated -/

/-- The pairs of automation and job that have been fired. -/
def Deliveries.firedPairs (s : Deliveries) : List (ℕ × ℕ) :=
  s.fired.map fun f ↦ (f.automation, f.job)

/-- No automation is fired twice on a job. -/
def Deliveries.AtMostOnce (s : Deliveries) : Prop := s.firedPairs.Nodup

/-- The automations of a claim that are due have been fired on its job. -/
def Claim.Fired (claim : Claim) (fired : List (ℕ × ℕ)) (current : Option ℕ) : Prop :=
  ∀ stored ∈ claim.selected, stored.isDue claim.row = true → some stored.id ≠ current →
    (stored.id, claim.job) ∈ fired

/-- A `consider` that has come to its end has fired every automation that was due, except for the
one it failed on. -/
def Deliveries.Isolated (s : Deliveries) : Prop :=
  ∀ c claim, (s.considers c = .returned claim → claim.Fired s.firedPairs none) ∧
    ∀ current, s.considers c = .raised claim current → claim.Fired s.firedPairs (some current.id)

/-- The claim and the automations still to be tried when an exception leaves `_fire`: that of
`_context`, of the `INSERT` or of the `UPDATE`. -/
def Deliveries.failing (s : Deliveries) : DeliveryAction → Option (Claim × List Entry)
  | .next c false =>
    match s.considers c with
    | .firing claim (current :: pending) =>
      if current.isDue claim.row then some (claim, pending) else none
    | _ => none
  | .record c stores =>
    match s.considers c with
    | .acting claim current [] pending =>
      if stores ∧ current.id ∈ s.automations.map Entry.id then none else some (claim, pending)
    | _ => none
  | .touch c false =>
    match s.considers c with
    | .recorded claim _ pending => some (claim, pending)
    | _ => none
  | _ => none

/-- When an exception leaves `_fire`, no automation is due after it. -/
def LastDue (s : Deliveries) (a : DeliveryAction) : Prop :=
  ∀ claim pending, s.failing a = some (claim, pending) →
    ∀ stored ∈ pending, stored.isDue claim.row = false

/-! ## What holds while a job is considered -/

/-- The job a `consider` has claimed and not given up. -/
def ConsiderStage.held : ConsiderStage → Option ℕ
  | claimed job _ => some job
  | firing claim _ | acting claim _ _ _ | recorded claim _ _ => some claim.job
  | _ => none

/-- The claim of a loop, the automations still to be tried and the one it is at. -/
structure Claim.Owing (claim : Claim) (fired : List (ℕ × ℕ)) (pending : List Entry) : Prop where
  subset : pending ⊆ claim.selected
  nodup : (pending.map Entry.id).Nodup
  unfired : ∀ stored ∈ pending, (stored.id, claim.job) ∉ fired
  accounted : ∀ stored ∈ claim.selected, stored.isDue claim.row = true →
    stored ∈ pending ∨ (stored.id, claim.job) ∈ fired

/-- What a phase says about the firings. -/
def ConsiderStage.Sound (fired : List (ℕ × ℕ)) : ConsiderStage → Prop
  | claimed job _ => ∀ pair ∈ fired, pair.2 ≠ job
  | firing claim pending => claim.Owing fired pending
  | acting claim current _ pending | recorded claim current pending =>
    claim.Owing fired pending ∧ current.id ∉ pending.map Entry.id
  | returned claim => claim.Fired fired none
  | _ => True

/-- `automations_at` of a job is set. -/
def Marked (jobs : List Job) (job : ℕ) : Prop :=
  ∃ row, jobs[job]? = some row ∧ row.considered = true

/-- No job is held by two calls; a job that is held or fired on is marked. -/
structure Deliveries.Sound (s : Deliveries) : Prop where
  distinct : (s.automations.map Entry.id).Nodup
  fresh : ∀ stored ∈ s.automations, stored.id < s.nextId
  exclusive : Exclusive (fun phase job ↦ ConsiderStage.held phase = some job) s.considers
  marked : ∀ c job, (s.considers c).held = some job → Marked s.jobs job
  firedMarked : ∀ pair ∈ s.firedPairs, Marked s.jobs pair.2
  firedOnce : s.AtMostOnce
  phases : ∀ c, (s.considers c).Sound s.firedPairs

variable {view safeLoad} {s t : Deliveries} {a : DeliveryAction}

theorem Deliveries.Sound.isolated_returned (hs : s.Sound) {c : ℕ} {claim : Claim}
    (h : s.considers c = .returned claim) : claim.Fired s.firedPairs none := by
  have hphase := hs.phases c
  rwa [h] at hphase

/-- A step that leaves the calls alone and takes no mark away. -/
theorem Deliveries.Sound.frame (hs : s.Sound) (hconsiders : t.considers = s.considers)
    (hfired : t.fired = s.fired) (hmarks : ∀ job, Marked s.jobs job → Marked t.jobs job)
    (hdistinct : (t.automations.map Entry.id).Nodup)
    (hfresh : ∀ stored ∈ t.automations, stored.id < t.nextId) : t.Sound := by
  have hpairs : t.firedPairs = s.firedPairs := by rw [firedPairs, firedPairs, hfired]
  refine ⟨hdistinct, hfresh, hconsiders ▸ hs.exclusive, fun c job h ↦ ?_, fun pair h ↦ ?_, ?_,
    fun c ↦ ?_⟩
  · exact hmarks job (hs.marked c job (hconsiders ▸ h))
  · exact hmarks pair.2 (hs.firedMarked pair (hpairs ▸ h))
  · rw [AtMostOnce, hpairs]
    exact hs.firedOnce
  · rw [hpairs, hconsiders]
    exact hs.phases c

/-- A call goes on: to a job it holds already, or to one that was not marked. -/
theorem Deliveries.Sound.move (hs : s.Sound) {c : ℕ} {phase : ConsiderStage}
    {jobs : List Job} {extra : List Submission}
    (hmarks : ∀ job, Marked s.jobs job → Marked jobs job)
    (hheld : ∀ job, phase.held = some job → (s.considers c).held = some job ∨
      ¬ Marked s.jobs job ∧ Marked jobs job) (hphase : phase.Sound s.firedPairs) :
    ({ s.setConsider c phase with jobs := jobs, submitted := extra } : Deliveries).Sound where
  distinct := hs.distinct
  fresh := hs.fresh
  exclusive := by
    refine hs.exclusive.update fun job hjob ↦ ?_
    rcases hheld job hjob with hold | ⟨hunmarked, -⟩
    · exact .inl hold
    · exact .inr fun d _ hd ↦ hunmarked (hs.marked d job hd)
  marked d job hd := by
    change (Function.update s.considers c phase d).held = some job at hd
    rw [Function.update_apply] at hd
    split at hd
    · rcases hheld job hd with hold | ⟨-, hnew⟩
      · exact hmarks job (hs.marked c job hold)
      · exact hnew
    · exact hmarks job (hs.marked d job hd)
  firedMarked pair h := hmarks pair.2 (hs.firedMarked pair h)
  firedOnce := hs.firedOnce
  phases d := by
    change (Function.update s.considers c phase d).Sound s.firedPairs
    rw [Function.update_apply]
    split
    · exact hphase
    · exact hs.phases d

theorem Claim.Owing.extend {claim : Claim} {fired : List (ℕ × ℕ)} {pending : List Entry}
    (h : claim.Owing fired pending) {pair : ℕ × ℕ} (hpair : pair.2 ≠ claim.job) :
    claim.Owing (fired ++ [pair]) pending where
  subset := h.subset
  nodup := h.nodup
  unfired stored hstored hmem := by
    rcases List.mem_append.mp hmem with hold | hnew
    · exact h.unfired stored hstored hold
    · rw [← List.mem_singleton.mp hnew] at hpair
      exact hpair rfl
  accounted stored hstored hdue :=
    (h.accounted stored hstored hdue).imp_right fun hold ↦ List.mem_append_left _ hold

/-- A firing on another job does not concern a call. -/
theorem ConsiderStage.Sound.extend {phase : ConsiderStage} {fired : List (ℕ × ℕ)}
    (h : phase.Sound fired) {pair : ℕ × ℕ} (hpair : phase.held ≠ some pair.2) :
    phase.Sound (fired ++ [pair]) := by
  cases phase with
  | claimed job row =>
    intro other hother
    rcases List.mem_append.mp hother with hold | hnew
    · exact h other hold
    · rw [List.mem_singleton.mp hnew]
      exact fun heq ↦ hpair (congrArg some heq.symm)
  | firing claim pending => exact Claim.Owing.extend h fun heq ↦ hpair (congrArg some heq.symm)
  | acting claim current left pending =>
    exact ⟨h.1.extend fun heq ↦ hpair (congrArg some heq.symm), h.2⟩
  | recorded claim current pending =>
    exact ⟨h.1.extend fun heq ↦ hpair (congrArg some heq.symm), h.2⟩
  | returned claim =>
    exact fun stored hstored hdue hne ↦ List.mem_append_left _ (h stored hstored hdue hne)
  | _ => trivial

/-- The head of the loop is fired, for the first time on this job. -/
theorem Deliveries.Sound.fire (hs : s.Sound) {c : ℕ} {claim : Claim} {current : Entry}
    {pending : List Entry} (hphase : s.considers c = .firing claim (current :: pending))
    (left : List Action) :
    ({ s.setConsider c (.acting claim current left pending) with
        fired := s.fired ++ [⟨current.id, claim.job, claim.row, current.writer⟩] } :
      Deliveries).Sound := by
  have howing : claim.Owing s.firedPairs (current :: pending) := by
    have h := hs.phases c
    rwa [hphase] at h
  have hheld : (s.considers c).held = some claim.job := by rw [hphase]; rfl
  have hnodup := howing.nodup
  rw [List.map_cons, List.nodup_cons] at hnodup
  have hpairs : ({ s.setConsider c (.acting claim current left pending) with
      fired := s.fired ++ [⟨current.id, claim.job, claim.row, current.writer⟩] } :
        Deliveries).firedPairs = s.firedPairs ++ [(current.id, claim.job)] := List.map_append
  have hunfired := howing.unfired current List.mem_cons_self
  refine ⟨hs.distinct, hs.fresh, ?_, fun d job hd ↦ ?_, fun pair h ↦ ?_, ?_, fun d ↦ ?_⟩
  · refine hs.exclusive.update fun job hjob ↦ .inl ?_
    rw [hheld]
    exact hjob
  · change (Function.update s.considers c _ d).held = some job at hd
    rw [Function.update_apply] at hd
    split at hd
    · exact hs.marked c job (hheld.trans hd)
    · exact hs.marked d job hd
  · rw [hpairs] at h
    rcases List.mem_append.mp h with hold | hnew
    · exact hs.firedMarked pair hold
    · rw [List.mem_singleton.mp hnew]
      exact hs.marked c claim.job hheld
  · rw [AtMostOnce, hpairs, ← List.concat_eq_append, List.nodup_concat]
    exact ⟨hunfired, hs.firedOnce⟩
  · rw [hpairs]
    change (Function.update s.considers c _ d).Sound _
    rw [Function.update_apply]
    split
    · refine ⟨⟨fun stored h ↦ howing.subset (List.mem_cons_of_mem _ h), hnodup.2, ?_, ?_⟩,
        hnodup.1⟩
      · intro stored hstored hmem
        rcases List.mem_append.mp hmem with hold | hnew
        · exact howing.unfired stored (List.mem_cons_of_mem _ hstored) hold
        · have hid : stored.id = current.id :=
            congrArg Prod.fst (List.mem_singleton.mp hnew)
          exact hnodup.1 (hid ▸ List.mem_map_of_mem hstored)
      · intro stored hstored hdue
        rcases howing.accounted stored hstored hdue with hpending | hold
        · rcases List.mem_cons.mp hpending with rfl | hrest
          · exact .inr (List.mem_append_right _ (List.mem_singleton_self _))
          · exact .inl hrest
        · exact .inr (List.mem_append_left _ hold)
    · next hdc =>
      exact (hs.phases d).extend fun hd ↦ hdc (hs.exclusive hd hheld)

/-- What the `SELECT` answers: the rows of the ids, which are stored. -/
theorem select_ids {automations : List Entry} {order : List ℕ}
    (h : ∀ id ∈ order, id ∈ automations.map Entry.id) :
    (order.filterMap fun id ↦ automations.find? fun stored ↦ stored.id == id).map Entry.id =
      order := by
  induction order with
  | nil => rfl
  | cons id rest ih =>
    obtain ⟨stored, hstored, hid⟩ := List.mem_map.mp (h id List.mem_cons_self)
    have hsome : (automations.find? fun stored ↦ stored.id == id).isSome = true :=
      List.find?_isSome.mpr ⟨stored, hstored, beq_iff_eq.mpr hid⟩
    obtain ⟨found, hfound⟩ := Option.isSome_iff_exists.mp hsome
    have hkey := List.find?_some (p := fun stored : Entry ↦ stored.id == id) hfound
    simp only [List.filterMap_cons, hfound]
    rw [List.map_cons, beq_iff_eq.mp hkey,
      ih fun other hother ↦ h other (List.mem_cons_of_mem _ hother)]

theorem marked_set {jobs : List Job} {job : ℕ} {old new : Job} (hold : jobs[job]? = some old)
    (hnew : old.considered = true → new.considered = true) {k : ℕ} (h : Marked jobs k) :
    Marked (jobs.set job new) k := by
  obtain ⟨row, hrow, hconsidered⟩ := h
  by_cases hk : k = job
  · rw [hk] at hrow ⊢
    rw [hold, Option.some.injEq] at hrow
    refine ⟨new, ?_, hnew (hrow ▸ hconsidered)⟩
    exact List.getElem?_set_self (List.getElem?_eq_some_iff.mp hold).1
  · exact ⟨row, by rw [List.getElem?_set_ne (Ne.symm hk)]; exact hrow, hconsidered⟩

theorem marked_append {jobs more : List Job} {job : ℕ} (h : Marked jobs job) :
    Marked (jobs ++ more) job := by
  obtain ⟨row, hrow, hconsidered⟩ := h
  refine ⟨row, ?_, hconsidered⟩
  rw [List.getElem?_append_left (List.getElem?_eq_some_iff.mp hrow).1, hrow]

/-! ## What a step does -/

/-- The automations of the ids, in their order. -/
def Deliveries.answer (s : Deliveries) (order : List ℕ) : List Entry :=
  order.filterMap fun id ↦ s.automations.find? fun stored ↦ stored.id == id

variable (view safeLoad) in
inductive DeliveryMoves (s : Deliveries) : DeliveryAction → Deliveries → Prop
  /-- A request is answered with an error, or its row is not taken. -/
  | refuse {a : DeliveryAction} : DeliveryMoves s a s
  /-- The clock goes on, or a job comes or ends outside of the calls. -/
  | outside {a : DeliveryAction} {clock : ℕ} {jobs : List Job}
      (hmarks : ∀ job, Marked s.jobs job → Marked jobs job) :
      DeliveryMoves s a { s with clock := clock, jobs := jobs }
  | insert {caller : Principal} {text : Str} {config : Config}
      (hcheck : checkDocument view safeLoad caller text = .ok config) :
      DeliveryMoves s (.create caller text true) (s.insert caller config)
  | request {u id : ℕ} {caller : Principal} {change : Change} {edit : Edit}
      (hcheck : s.check view safeLoad caller id change = .ok edit) :
      DeliveryMoves s (.request u caller id change) (s.setEdit u (some ⟨caller, id, edit⟩))
  | write {u : ℕ} {pending : PendingEdit} (hedit : s.edits u = some pending) :
      DeliveryMoves s (.write u true)
        { s.setEdit u none with automations := pending.applyAll s.automations }
  | drop {u : ℕ} : DeliveryMoves s (.write u false) (s.setEdit u none)
  | read {c job : ℕ} {row : Job} (hrow : s.jobs[job]? = some row)
      (hterminal : row.status.isTerminal = true) :
      DeliveryMoves s (.read c job) (s.setConsider c (.read job row))
  /-- There is nothing to do, or the process ends. -/
  | ended {a : DeliveryAction} {c : ℕ} : DeliveryMoves s a (s.setConsider c .over)
  | claim {c job : ℕ} {row current : Job} (hcurrent : s.jobs[job]? = some current)
      (hconsidered : current.considered = false) :
      DeliveryMoves s (.claim c)
        { s.setConsider c (.claimed job row) with
          jobs := s.jobs.set job { current with considered := true } }
  | select {c job : ℕ} {row : Job} {order : List ℕ} (hphase : s.considers c = .claimed job row)
      (hperm : order.Perm
        ((s.automations.filter fun stored ↦ stored.isSelected row).map Entry.id)) :
      DeliveryMoves s (.select c order)
        (s.setConsider c (.firing ⟨job, row, s.answer order⟩ (s.answer order)))
  | skip {c : ℕ} {claim : Claim} {current : Entry} {pending : List Entry} {context : Bool}
      (hphase : s.considers c = .firing claim (current :: pending))
      (hdue : current.isDue claim.row = false) :
      DeliveryMoves s (.next c context) (s.setConsider c (.firing claim pending))
  | fire {c : ℕ} {claim : Claim} {current : Entry} {pending : List Entry}
      (hphase : s.considers c = .firing claim (current :: pending))
      (hdue : current.isDue claim.row = true) :
      DeliveryMoves s (.next c true)
        { s.setConsider c (.acting claim current current.automation.config.actions pending) with
          fired := s.fired ++ [⟨current.id, claim.job, claim.row, current.writer⟩] }
  | act {c : ℕ} {claim : Claim} {current : Entry} {action : Action} {left : List Action}
      {pending : List Entry} {submits : Bool}
      (hphase : s.considers c = .acting claim current (action :: left) pending) :
      DeliveryMoves s (.act c submits)
        { s.setConsider c (.acting claim current left pending) with
          jobs := s.jobs ++
            if submits then (Automations.submitted current.automation.name action).toList else []
          submitted := s.submitted ++
            (if submits then (Automations.submitted current.automation.name action).toList
              else []).map (⟨current.writer, ·⟩) }
  | record {c : ℕ} {claim : Claim} {current : Entry} {pending : List Entry} {stores : Bool}
      (hphase : s.considers c = .acting claim current [] pending) :
      DeliveryMoves s (.record c stores) (s.setConsider c (.recorded claim current pending))
  | touch {c : ℕ} {claim : Claim} {current : Entry} {pending : List Entry}
      (hphase : s.considers c = .recorded claim current pending) :
      DeliveryMoves s (.touch c true) (s.setConsider c (.firing claim pending))
  | finish {c : ℕ} {claim : Claim} (hphase : s.considers c = .firing claim []) :
      DeliveryMoves s (.finish c) (s.setConsider c (.returned claim))
  /-- An exception leaves `_fire`. -/
  | raise {a : DeliveryAction} {c : ℕ} {claim : Claim} {current : Entry} {pending : List Entry}
      (hfailing : s.failing a = some (claim, pending)) :
      DeliveryMoves s a (s.setConsider c (.raised claim current))

theorem deliveryMoves_complete {job : ℕ} {status : JobStatus} (h : s.complete job status = some t) :
    DeliveryMoves view safeLoad s (.complete job status) t := by
  rw [Deliveries.complete] at h
  split at h
  · cases h
  · next row hrow =>
    obtain ⟨_, ht⟩ := Option.ite_none_right_eq_some.mp h
    rw [← Option.some.inj ht]
    refine .outside fun _ ↦ marked_set hrow ?_
    exact fun hconsidered ↦ hconsidered

theorem deliveryMoves_create {caller : Principal} {text : Str} {stores : Bool}
    (ht : s.create view safeLoad caller text stores = t) :
    DeliveryMoves view safeLoad s (.create caller text stores) t := by
  rw [Deliveries.create] at ht
  split at ht
  · exact ht ▸ .refuse
  · next config hcheck =>
    cases stores with
    | true => exact ht ▸ .insert hcheck
    | false => exact ht ▸ .refuse

theorem deliveryMoves_request {u : ℕ} {caller : Principal} {id : ℕ} {change : Change}
    (h : s.request view safeLoad u caller id change = some t) :
    DeliveryMoves view safeLoad s (.request u caller id change) t := by
  rw [Deliveries.request] at h
  split at h
  · cases h
  · split at h
    · exact Option.some.inj h ▸ .refuse
    · next edit hcheck => exact Option.some.inj h ▸ .request hcheck

theorem deliveryMoves_write {u : ℕ} {stores : Bool} (h : s.write u stores = some t) :
    DeliveryMoves view safeLoad s (.write u stores) t := by
  rw [Deliveries.write] at h
  split at h
  · cases h
  · next pending hedit =>
    cases stores with
    | true => exact Option.some.inj h ▸ .write hedit
    | false => exact Option.some.inj h ▸ .drop

theorem deliveryMoves_read {c job : ℕ} (h : s.read c job = some t) :
    DeliveryMoves view safeLoad s (.read c job) t := by
  rw [Deliveries.read] at h
  split at h
  · split at h
    · exact Option.some.inj h ▸ .ended
    · next row hrow =>
      split at h
      · next hterminal => exact Option.some.inj h ▸ .read hrow hterminal
      · exact Option.some.inj h ▸ .ended
  · cases h

theorem deliveryMoves_claim {c : ℕ} (h : s.claim c = some t) :
    DeliveryMoves view safeLoad s (.claim c) t := by
  rw [Deliveries.claim] at h
  split at h
  · split at h
    · exact Option.some.inj h ▸ .ended
    · next current hcurrent =>
      split at h
      · exact Option.some.inj h ▸ .ended
      · next hconsidered =>
        exact Option.some.inj h ▸ .claim hcurrent (Bool.not_eq_true _ ▸ hconsidered)
  · cases h

theorem deliveryMoves_select {c : ℕ} {order : List ℕ} (h : s.select c order = some t) :
    DeliveryMoves view safeLoad s (.select c order) t := by
  rw [Deliveries.select] at h
  split at h
  · next job row hphase =>
    obtain ⟨hperm, ht⟩ := Option.ite_none_right_eq_some.mp h
    exact Option.some.inj ht ▸ .select hphase hperm
  · cases h

theorem deliveryMoves_next {c : ℕ} {context : Bool} (h : s.next c context = some t) :
    DeliveryMoves view safeLoad s (.next c context) t := by
  rw [Deliveries.next] at h
  split at h
  · next claim current pending hphase =>
    cases hdue : current.isDue claim.row with
    | false =>
      rw [hdue] at h
      exact Option.some.inj h ▸ .skip hphase hdue
    | true =>
      rw [hdue] at h
      cases context with
      | true => exact Option.some.inj h ▸ .fire hphase hdue
      | false =>
        have hfailing : s.failing (.next c false) = some (claim, pending) := by
          simp only [Deliveries.failing, hphase, hdue, if_true]
        exact Option.some.inj h ▸ .raise hfailing
  · cases h

theorem deliveryMoves_act {c : ℕ} {submits : Bool} (h : s.act c submits = some t) :
    DeliveryMoves view safeLoad s (.act c submits) t := by
  rw [Deliveries.act] at h
  split at h
  · next hphase => exact Option.some.inj h ▸ .act hphase
  · cases h

theorem deliveryMoves_record {c : ℕ} {stores : Bool} (h : s.record c stores = some t) :
    DeliveryMoves view safeLoad s (.record c stores) t := by
  rw [Deliveries.record] at h
  split at h
  · next claim current pending hphase =>
    split at h
    · exact Option.some.inj h ▸ .record hphase
    · next hrefused =>
      have hfailing : s.failing (.record c stores) = some (claim, pending) := by
        simp only [Deliveries.failing, hphase, if_neg hrefused]
      exact Option.some.inj h ▸ .raise hfailing
  · cases h

theorem deliveryMoves_touch {c : ℕ} {stores : Bool} (h : s.touch c stores = some t) :
    DeliveryMoves view safeLoad s (.touch c stores) t := by
  rw [Deliveries.touch] at h
  split at h
  · next claim current pending hphase =>
    cases stores with
    | true => exact Option.some.inj h ▸ .touch hphase
    | false =>
      have hfailing : s.failing (.touch c false) = some (claim, pending) := by
        simp only [Deliveries.failing, hphase]
      exact Option.some.inj h ▸ .raise hfailing
  · cases h

theorem deliveryMoves_finish {c : ℕ} (h : s.finish c = some t) :
    DeliveryMoves view safeLoad s (.finish c) t := by
  rw [Deliveries.finish] at h
  split at h
  · next claim hphase => exact Option.some.inj h ▸ .finish hphase
  · cases h

theorem deliveryMoves_die {c : ℕ} (h : s.die c = some t) :
    DeliveryMoves view safeLoad s (.die c) t := by
  rw [Deliveries.die] at h
  split at h
  · cases h
  · cases h
  · cases h
  · exact Option.some.inj h ▸ .ended

theorem deliveryMoves_of_step (h : (deliveryMachine view safeLoad).step s a = some t) :
    DeliveryMoves view safeLoad s a t := by
  cases a with
  | tick => exact Option.some.inj h ▸ .outside fun _ ↦ id
  | submit repository workspace triggeredBy =>
    exact Option.some.inj h ▸ .outside fun _ ↦ marked_append
  | complete job status => exact deliveryMoves_complete h
  | create caller text stores => exact deliveryMoves_create (Option.some.inj h)
  | request u caller id change => exact deliveryMoves_request h
  | write u stores => exact deliveryMoves_write h
  | read c job => exact deliveryMoves_read h
  | claim c => exact deliveryMoves_claim h
  | select c order => exact deliveryMoves_select h
  | next c context => exact deliveryMoves_next h
  | act c submits => exact deliveryMoves_act h
  | record c stores => exact deliveryMoves_record h
  | touch c stores => exact deliveryMoves_touch h
  | finish c => exact deliveryMoves_finish h
  | die c => exact deliveryMoves_die h

/-! ## A step keeps what holds -/

/-- A call goes on without touching a job. -/
theorem Deliveries.Sound.advance (hs : s.Sound) {c : ℕ} {phase : ConsiderStage}
    (hheld : ∀ job, phase.held = some job → (s.considers c).held = some job)
    (hphase : phase.Sound s.firedPairs) : (s.setConsider c phase).Sound :=
  hs.move (fun _ ↦ id) (fun job h ↦ .inl (hheld job h)) hphase

theorem PendingEdit.apply_id (pending : PendingEdit) (stored : Entry) :
    (pending.apply stored).id = stored.id := by
  rw [apply]
  split
  · split <;> rfl
  · rfl

theorem PendingEdit.applyAll_ids (pending : PendingEdit) (automations : List Entry) :
    ((pending.applyAll automations).map Entry.id).Sublist (automations.map Entry.id) := by
  have hmap : (automations.map pending.apply).map Entry.id = automations.map Entry.id := by
    rw [List.map_map]
    exact List.map_congr_left fun stored _ ↦ pending.apply_id stored
  rw [applyAll]
  split
  · exact List.filter_sublist.map _
  · rw [hmap]

theorem sound_insert (hs : s.Sound) (caller : Principal) (config : Config) :
    (s.insert caller config).Sound := by
  refine hs.frame rfl rfl (fun _ ↦ id) ?_ fun stored hstored ↦ ?_
  · rw [Deliveries.insert, List.map_append, List.map_singleton, ← List.concat_eq_append,
      List.nodup_concat]
    refine ⟨fun hmem ↦ ?_, hs.distinct⟩
    obtain ⟨stored, hstored, hid⟩ := List.mem_map.mp hmem
    exact absurd hid (hs.fresh stored hstored).ne
  · rcases List.mem_append.mp hstored with hold | hnew
    · exact (hs.fresh stored hold).trans (Nat.lt_succ_self _)
    · rw [List.mem_singleton.mp hnew]
      exact Nat.lt_succ_self _

theorem sound_write (hs : s.Sound) {u : ℕ} (pending : PendingEdit) :
    ({ s.setEdit u none with automations := pending.applyAll s.automations } :
      Deliveries).Sound := by
  have hids := pending.applyAll_ids s.automations
  refine hs.frame rfl rfl (fun _ ↦ id) (hs.distinct.sublist hids) fun stored hstored ↦ ?_
  obtain ⟨old, hold, hid⟩ := List.mem_map.mp (hids.subset (List.mem_map_of_mem hstored))
  rw [← hid]
  exact hs.fresh old hold

theorem sound_claim (hs : s.Sound) {c job : ℕ} {row current : Job}
    (hcurrent : s.jobs[job]? = some current) (hconsidered : current.considered = false) :
    ({ s.setConsider c (.claimed job row) with
        jobs := s.jobs.set job { current with considered := true } } : Deliveries).Sound := by
  have hunmarked : ¬ Marked s.jobs job := by
    rintro ⟨other, hother, hmark⟩
    rw [hcurrent, Option.some.injEq] at hother
    rw [← hother, hconsidered] at hmark
    cases hmark
  refine hs.move (fun k ↦ marked_set hcurrent fun _ ↦ rfl) (fun k hk ↦ ?_) fun pair hpair ↦ ?_
  · rw [← Option.some.inj hk]
    refine .inr ⟨hunmarked, { current with considered := true }, ?_, rfl⟩
    exact List.getElem?_set_self (List.getElem?_eq_some_iff.mp hcurrent).1
  · rintro rfl
    exact hunmarked (hs.firedMarked pair hpair)

theorem sound_select (hs : s.Sound) {c job : ℕ} {row : Job} {order : List ℕ}
    (hphase : s.considers c = .claimed job row)
    (hperm : order.Perm
      ((s.automations.filter fun stored ↦ stored.isSelected row).map Entry.id)) :
    (s.setConsider c (.firing ⟨job, row, s.answer order⟩ (s.answer order))).Sound := by
  have hids : ∀ id ∈ order, id ∈ s.automations.map Entry.id := by
    intro id hid
    obtain ⟨stored, hstored, rfl⟩ := List.mem_map.mp (hperm.mem_iff.mp hid)
    exact List.mem_map_of_mem (List.mem_of_mem_filter hstored)
  have hnodup : order.Nodup :=
    hperm.nodup_iff.mpr (hs.distinct.sublist (List.filter_sublist.map _))
  have hfresh : ∀ pair ∈ s.firedPairs, pair.2 ≠ job := by
    have hclaimed := hs.phases c
    rwa [hphase] at hclaimed
  refine hs.advance (fun k hk ↦ by rw [hphase]; exact hk) ⟨List.Subset.refl _, ?_, ?_, ?_⟩
  · rw [Deliveries.answer, select_ids hids]
    exact hnodup
  · exact fun stored _ hfired ↦ hfresh _ hfired rfl
  · exact fun stored hstored _ ↦ .inl hstored

/-- The loop goes on past an automation that is not due. -/
theorem Claim.Owing.skip {claim : Claim} {fired : List (ℕ × ℕ)} {current : Entry}
    {pending : List Entry} (h : claim.Owing fired (current :: pending))
    (hdue : current.isDue claim.row = false) : claim.Owing fired pending where
  subset _ hstored := h.subset (List.mem_cons_of_mem _ hstored)
  nodup := (List.nodup_cons.mp h.nodup).2
  unfired stored hstored := h.unfired stored (List.mem_cons_of_mem _ hstored)
  accounted stored hstored hdue' := by
    rcases h.accounted stored hstored hdue' with hpending | hfired
    · rcases List.mem_cons.mp hpending with rfl | hrest
      · rw [hdue] at hdue'
        cases hdue'
      · exact .inl hrest
    · exact .inr hfired

theorem sound_step (hs : s.Sound) (h : (deliveryMachine view safeLoad).step s a = some t) :
    t.Sound := by
  have hphases := hs.phases
  cases deliveryMoves_of_step h with
  | refuse => exact hs
  | outside hmarks => exact hs.frame rfl rfl hmarks hs.distinct hs.fresh
  | insert => exact sound_insert hs _ _
  | request | drop => exact hs.frame rfl rfl (fun _ ↦ id) hs.distinct hs.fresh
  | write => exact sound_write hs _
  | read | ended | raise => exact hs.advance nofun trivial
  | claim hcurrent hconsidered => exact sound_claim hs hcurrent hconsidered
  | select hphase hperm => exact sound_select hs hphase hperm
  | @skip c claim current pending context hphase hdue =>
    have howing := hphases c
    rw [hphase] at howing
    exact hs.advance (fun k hk ↦ by rw [hphase]; exact hk) (howing.skip hdue)
  | fire hphase => exact hs.fire hphase _
  | @act c claim current action left pending submits hphase =>
    have hacting := hphases c
    rw [hphase] at hacting
    exact hs.move (fun _ ↦ marked_append) (fun k hk ↦ .inl (by rw [hphase]; exact hk)) hacting
  | @record c claim current pending stores hphase =>
    have hacting := hphases c
    rw [hphase] at hacting
    exact hs.advance (fun k hk ↦ by rw [hphase]; exact hk) hacting
  | @touch c claim current pending hphase =>
    have hrecorded := hphases c
    rw [hphase] at hrecorded
    exact hs.advance (fun k hk ↦ by rw [hphase]; exact hk) hrecorded.1
  | @finish c claim hphase =>
    have howing := hphases c
    rw [hphase] at howing
    refine hs.advance nofun fun stored hstored hdue _ ↦ ?_
    exact (howing.accounted stored hstored hdue).resolve_left List.not_mem_nil

/-! ## When an exception leaves `_fire` -/

/-- The call ends on the exception.  What is pending is selected, is not the automation it was at
and has not been fired; what is neither pending nor that automation has been, where it was due. -/
theorem failing_step (hs : s.Sound) (h : (deliveryMachine view safeLoad).step s a = some t)
    {claim : Claim} {pending : List Entry} (hfailing : s.failing a = some (claim, pending)) :
    ∃ c current, t = s.setConsider c (.raised claim current) ∧
      (∀ stored ∈ pending, stored ∈ claim.selected ∧ stored.id ≠ current.id ∧
        (stored.id, claim.job) ∉ s.firedPairs) ∧
      ∀ stored ∈ claim.selected, stored.isDue claim.row = true → stored.id ≠ current.id →
        stored ∈ pending ∨ (stored.id, claim.job) ∈ s.firedPairs := by
  have hpending : ∀ {current : Entry}, claim.Owing s.firedPairs pending →
      current.id ∉ pending.map Entry.id → ∀ stored ∈ pending, stored ∈ claim.selected ∧
        stored.id ≠ current.id ∧ (stored.id, claim.job) ∉ s.firedPairs := by
    intro current howing hcurrent stored hstored
    refine ⟨howing.subset hstored, fun heq ↦ ?_, howing.unfired stored hstored⟩
    exact hcurrent (heq ▸ List.mem_map_of_mem hstored)
  unfold Deliveries.failing at hfailing
  split at hfailing
  · next c =>
    split at hfailing
    · next claim' current pending' hphase =>
      split at hfailing
      · next hdue =>
        cases hfailing
        have howing := hs.phases c
        rw [hphase] at howing
        change s.next c false = some t at h
        simp only [Deliveries.next, hphase, hdue] at h
        refine ⟨c, current, (Option.some.inj h).symm, fun stored hstored ↦ ⟨?_, ?_, ?_⟩, ?_⟩
        · exact howing.subset (List.mem_cons_of_mem _ hstored)
        · intro heq
          exact (List.nodup_cons.mp howing.nodup).1 (heq ▸ List.mem_map_of_mem hstored)
        · exact howing.unfired stored (List.mem_cons_of_mem _ hstored)
        · intro stored hstored hdue' hne
          refine (howing.accounted stored hstored hdue').imp_left fun hmem ↦ ?_
          exact (List.mem_cons.mp hmem).resolve_left fun heq ↦ hne (congrArg Entry.id heq)
      · cases hfailing
    · cases hfailing
  · next c stores =>
    split at hfailing
    · next claim' current pending' hphase =>
      split at hfailing
      · cases hfailing
      · next hrefused =>
        cases hfailing
        have hacting := hs.phases c
        rw [hphase] at hacting
        change s.record c stores = some t at h
        simp only [Deliveries.record, hphase, if_neg hrefused] at h
        exact ⟨c, current, (Option.some.inj h).symm, hpending hacting.1 hacting.2,
          fun stored hstored hdue _ ↦ hacting.1.accounted stored hstored hdue⟩
    · cases hfailing
  · next c =>
    split at hfailing
    · next claim' current pending' hphase =>
      cases hfailing
      have hrecorded := hs.phases c
      rw [hphase] at hrecorded
      change s.touch c false = some t at h
      simp only [Deliveries.touch, hphase] at h
      exact ⟨c, current, (Option.some.inj h).symm, hpending hrecorded.1 hrecorded.2,
        fun stored hstored hdue _ ↦ hrecorded.1.accounted stored hstored hdue⟩
    · cases hfailing
  · cases hfailing

/-- An exception has left `_fire`. -/
def ConsiderStage.isRaised : ConsiderStage → Bool
  | raised .. => true
  | _ => false

/-- A step that keeps the firings and lets no exception leave `_fire`. -/
structure Deliveries.Unraised (s t : Deliveries) : Prop where
  fired : s.fired <+: t.fired
  raised : ∀ d claim current, t.considers d = .raised claim current →
    s.considers d = .raised claim current

theorem unraised_setConsider {c : ℕ} {phase : ConsiderStage} {jobs : List Job}
    {fired : List Firing} {extra : List Submission} (hfired : s.fired <+: fired)
    (hphase : phase.isRaised = false) :
    s.Unraised { s.setConsider c phase with jobs := jobs, fired := fired, submitted := extra } where
  fired := hfired
  raised d claim current h := by
    change Function.update s.considers c phase d = .raised claim current at h
    rw [Function.update_apply] at h
    split at h
    · rw [h] at hphase
      cases hphase
    · exact h

/-- The phase of a call is all that a step changes of the calls. -/
theorem unraised_advance {c : ℕ} {phase : ConsiderStage}
    (hphase : phase.isRaised = false) : s.Unraised (s.setConsider c phase) :=
  unraised_setConsider (List.prefix_refl _) hphase

theorem unraised_of_eq (hfired : t.fired = s.fired) (hconsiders : t.considers = s.considers) :
    s.Unraised t where
  fired := hfired ▸ List.prefix_refl _
  raised _ _ _ h := hconsiders ▸ h

/-- No other exception leaves a call. -/
theorem unraised_step (hfailing : s.failing a = none)
    (h : (deliveryMachine view safeLoad).step s a = some t) : s.Unraised t := by
  cases deliveryMoves_of_step h with
  | refuse | outside | insert | request | write | drop => exact unraised_of_eq rfl rfl
  | read | ended | select | skip | record | touch | finish => exact unraised_advance rfl
  | claim | act => exact unraised_setConsider (List.prefix_refl _) rfl
  | fire => exact unraised_setConsider (List.prefix_append _ _) rfl
  | raise hraises =>
    rw [hfailing] at hraises
    cases hraises

theorem Claim.Fired.mono {claim : Claim} {fired more : List (ℕ × ℕ)} {current : Option ℕ}
    (h : claim.Fired fired current) (hsubset : fired ⊆ more) : claim.Fired more current :=
  fun stored hstored hdue hne ↦ hsubset (h stored hstored hdue hne)

theorem isolated_keep (hs : s.Sound ∧ s.Isolated) (hlast : LastDue s a)
    (h : (deliveryMachine view safeLoad).step s a = some t) : t.Sound ∧ t.Isolated := by
  have ht := sound_step hs.1 h
  refine ⟨ht, fun c claim ↦ ⟨ht.isolated_returned, fun current hraised ↦ ?_⟩⟩
  cases hfailing : s.failing a with
  | none =>
    have hstep := unraised_step hfailing h
    exact ((hs.2 c claim).2 current (hstep.raised c claim current hraised)).mono
      (List.map_subset _ hstep.fired.subset)
  | some failed =>
    obtain ⟨failedClaim, pending⟩ := failed
    obtain ⟨d, failedAt, rfl, -, haccounted⟩ := failing_step hs.1 h hfailing
    change Function.update s.considers d _ c = _ at hraised
    rw [Function.update_apply] at hraised
    split at hraised
    · cases hraised
      intro stored hstored hdue hne
      refine (haccounted stored hstored hdue fun heq ↦ hne (congrArg some heq)).resolve_left ?_
      intro hpending
      rw [hlast _ _ hfailing stored hpending] at hdue
      cases hdue
    · exact (hs.2 c claim).2 current hraised

theorem isolated_break (hs : s.Sound ∧ s.Isolated) (hlast : ¬ LastDue s a)
    (h : (deliveryMachine view safeLoad).step s a = some t) : ¬ t.Isolated := by
  intro ht
  apply hlast
  intro claim pending hfailing stored hstored
  obtain ⟨c, current, rfl, hpending, -⟩ := failing_step hs.1 h hfailing
  obtain ⟨hselected, hne, hunfired⟩ := hpending stored hstored
  by_contra hdue
  rw [Bool.not_eq_false] at hdue
  have hfired := (ht c claim).2 current (Function.update_self ..) stored hselected hdue
  exact hunfired (hfired fun heq ↦ hne (Option.some.inj heq))

theorem sound_init : ({} : Deliveries).Sound where
  distinct := List.nodup_nil
  fresh _ h := nomatch h
  exclusive _ _ _ h := nomatch h
  marked _ _ h := nomatch h
  firedMarked _ h := nomatch h
  firedOnce := List.nodup_nil
  phases _ := trivial

theorem isolated_init : ({} : Deliveries).Isolated := by
  intro c claim
  constructor
  · intro h
    cases h
  · intro current h
    cases h

/-- In every run no automation is fired twice on a job; and a failing automation keeps none of the
others from being fired exactly as long as no exception leaves `_fire` while one of them is due. -/
theorem delivery_once_and_isolated_iff (view : Rendering) (safeLoad : Str → Except Str Yaml)
    (actions : List DeliveryAction) {s : Deliveries}
    (hrun : (deliveryMachine view safeLoad).run {} actions = some s) :
    s.AtMostOnce ∧ ((deliveryMachine view safeLoad).Always Deliveries.Isolated {} actions ↔
      (deliveryMachine view safeLoad).Meets LastDue {} actions) := by
  constructor
  · exact ((deliveryMachine view safeLoad).invariant (I := Deliveries.Sound)
      (fun _ _ _ hs h ↦ sound_step hs h) hrun sound_init).firedOnce
  · exact (deliveryMachine view safeLoad).always_iff_meets (I := fun s ↦ s.Sound ∧ s.Isolated)
      (fun _ h ↦ h.2) (fun _ _ _ hs hlast h ↦ isolated_keep hs hlast h)
      (fun _ _ _ hs hlast h ↦ isolated_break hs hlast h) hrun
      ⟨sound_init, isolated_init⟩

/-- A document that runs `ops/publish` when `ops/load` has ended; its text is its name. -/
def publishDocument (name : Str) : Except Str Yaml :=
  .ok (.mapping [
    (.text (str "name"), .text name),
    (.text (str "trigger"), .mapping [
      (.text (str "type"), .text (str "job_complete")),
      (.text (str "repository"), .text (str "ops")),
      (.text (str "workspace"), .text (str "load"))]),
    (.text (str "actions"), .list [.mapping [
      (.text (str "type"), .text (str "run_workspace")),
      (.text (str "repository"), .text (str "ops")),
      (.text (str "workspace"), .text (str "publish"))]])])

/-- Two automations, and a job that both are due on: the first one has acted. -/
def twoSelected : List DeliveryAction := [
  .create (scopedTo [str "*"]) (str "first") true,
  .create (scopedTo [str "*"]) (str "second") true,
  .submit (str "ops") (str "load") none, .complete 0 .complete,
  .read 0 0, .claim 0, .select 0 [0, 1], .next 0 true, .act 0 true]

/-- The first automation is deleted before its run is recorded; the second is never fired. -/
def deletedInBetween : List DeliveryAction :=
  twoSelected ++ [.request 0 (scopedTo [str "*"]) 0 .delete, .write 0 true, .record 0 true]

theorem delivery_not_isolated : ¬ ∀ actions s,
    (deliveryMachine textsOnly publishDocument).run {} actions = some s → s.Isolated := by
  intro h
  obtain ⟨s, hrun, claim, current, hraised, second, hselected, hdue, hne, hunfired⟩ :
      ∃ s, (deliveryMachine textsOnly publishDocument).run {} deletedInBetween = some s ∧
        ∃ claim current, s.considers 0 = .raised claim current ∧
          ∃ second ∈ claim.selected, second.isDue claim.row = true ∧ second.id ≠ current.id ∧
            (second.id, claim.job) ∉ s.firedPairs := by
    refine ⟨_, rfl, _, _, rfl, _, List.mem_cons_of_mem _ List.mem_cons_self, ?_, ?_, ?_⟩
    · decide
    · decide
    · decide
  exact hunfired ((h _ s hrun 0 claim).2 current hraised second hselected hdue
    fun heq ↦ hne (Option.some.inj heq))

/-- Nobody fails while the two are at work. -/
theorem delivery_once_and_isolated_iff_twoSelected :
    (∃ s, (deliveryMachine textsOnly publishDocument).run {} twoSelected = some s ∧
      s.AtMostOnce) ∧
    ((deliveryMachine textsOnly publishDocument).Always Deliveries.Isolated {} twoSelected ↔
      (deliveryMachine textsOnly publishDocument).Meets LastDue {} twoSelected) :=
  ⟨⟨_, rfl, (delivery_once_and_isolated_iff textsOnly publishDocument twoSelected rfl).1⟩,
    (delivery_once_and_isolated_iff textsOnly publishDocument twoSelected rfl).2⟩

end DatumSync.Automations
