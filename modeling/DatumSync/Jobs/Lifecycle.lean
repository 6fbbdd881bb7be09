import DatumSync.Foundation.Machine
import DatumSync.Jobs.Events
import Mathlib.Data.List.Sort

/-!
# The life of a job

The `jobs` table under `submit`, `claim`, `finish`, `cancel` and `requeue_orphans`, any number of
each at a time, with their statements in any order.  A transaction's writes are seen at its commit;
`claim` holds the row lock from its `SELECT` on, and the `UPDATE` of another session waits for it.
-/

namespace DatumSync.Jobs

open Foundation Python

structure StoredJob extends JobRow where
  repository : Str
  workspace : Str
  params : Str
  submittedAt : ℤ
  deriving DecidableEq

/-- `jobs`; the id is the primary key. -/
structure JobTable where
  rows : List StoredJob
  distinct : (rows.map (·.id)).Nodup

/-- Where a `claim` is; a started row is not committed. -/
inductive ClaimPhase where
  | idle
  | selected (id : Str)
  | started (id startedAt : Str)
  deriving DecidableEq

def ClaimPhase.job : ClaimPhase → Option Str
  | idle => none
  | selected id => some id
  | started id _ => some id

/-- What `cancel` returns; `cancelled` is its answer after flipping the row. -/
inductive CancelAnswer where
  | cancelled
  | signalled
  | status (status : JobStatus)
  deriving DecidableEq

inductive CancelPhase where
  | idle
  | read (id : Str) (status : JobStatus)
  | flipped (id : Str)
  | lost (id : Str)
  | reread (id : Str) (status : JobStatus)
  | answered (id : Str) (answer : CancelAnswer)
  deriving DecidableEq

def CancelPhase.cancelled : CancelPhase → Option Str
  | flipped id => some id
  | answered id .cancelled => some id
  | _ => none

inductive JobEvent where
  | claimed (id : Str)
  | requeued (id : Str)
  deriving DecidableEq

/-- The table and the sessions that use it. -/
structure Queue where
  jobs : JobTable
  /-- The rows of `submit` that are inserted and not committed. -/
  submits : ℕ → Option StoredJob := fun _ ↦ none
  claims : ℕ → ClaimPhase := fun _ ↦ .idle
  locks : Str → Option ℕ := fun _ ↦ none
  /-- The jobs in the hands of a worker's `_execute`. -/
  executing : List Str := []
  cancels : ℕ → CancelPhase := fun _ ↦ .idle
  /-- What happened, newest first. -/
  history : List JobEvent := []

inductive QueueAction where
  | insert (p : ℕ) (id repository workspace params : Str) (submittedAt : ℤ)
  | commitSubmit (p : ℕ)
  | rollbackSubmit (p : ℕ)
  | select (c : ℕ)
  | start (c : ℕ) (now : Str)
  | commitClaim (c : ℕ)
  | rollbackClaim (c : ℕ)
  | finish (id : Str) (status : JobStatus) (artifacts : Json) (error : Option Str) (now : Str)
  | abandon (id : Str)
  | readStatus (x : ℕ) (id : Str)
  | flip (x : ℕ) (now : Str)
  | reread (x : ℕ)
  | answer (x : ℕ)
  | requeue
  deriving DecidableEq

/-! ## Statements -/

def StoredJob.start (row : StoredJob) (now : Str) : StoredJob :=
  { row with status := .running, startedAt := some now }

def StoredJob.finish (row : StoredJob) (status : JobStatus) (artifacts : Json)
    (error : Option Str) (now : Str) : StoredJob :=
  { row with status := status, completedAt := some now, artifacts := artifacts, error := error }

def StoredJob.cancel (row : StoredJob) (now : Str) : StoredJob :=
  { row with status := .cancelled, completedAt := some now }

/-- `UPDATE jobs SET status = 'queued', started_at = NULL WHERE status = 'running'` -/
def StoredJob.requeue (row : StoredJob) : StoredJob :=
  if row.status = .running then { row with status := .queued, startedAt := none } else row

theorem StoredJob.requeue_id (row : StoredJob) : row.requeue.id = row.id := by
  unfold StoredJob.requeue
  split <;> rfl

namespace JobTable

variable (jobs : JobTable)

/-- `SELECT ... FROM jobs WHERE id = $1` -/
def lookup (id : Str) : Option StoredJob := jobs.rows.find? fun row ↦ row.id == id

/-- The status of a job; `none` when there is no such row. -/
def statusOf (id : Str) : Option JobStatus := (jobs.lookup id).map (·.status)

/-- An `UPDATE` that leaves the ids as they are. -/
def modify (f : StoredJob → StoredJob) (hf : ∀ row, (f row).id = row.id) : JobTable where
  rows := jobs.rows.map f
  distinct := by
    have hids : (jobs.rows.map f).map (·.id) = jobs.rows.map (·.id) := by
      rw [List.map_map]
      exact List.map_congr_left fun row _ ↦ hf row
    rw [hids]
    exact jobs.distinct

/-- `UPDATE jobs SET ... WHERE id = $1` -/
def update (id : Str) (f : StoredJob → StoredJob) (hf : ∀ row, (f row).id = row.id) : JobTable :=
  jobs.modify (fun row ↦ if row.id = id then f row else row) fun row ↦ by
    split
    · exact hf row
    · rfl

theorem id_of_lookup {id : Str} {row : StoredJob} (h : jobs.lookup id = some row) :
    row.id = id := by
  have hid := List.find?_some h
  exact eq_of_beq hid

theorem lookup_eq_none {id : Str} : jobs.lookup id = none ↔ id ∉ jobs.rows.map (·.id) := by
  unfold lookup
  rw [List.find?_eq_none, List.mem_map]
  simp

def insert (job : StoredJob) (hnew : jobs.lookup job.id = none) : JobTable where
  rows := jobs.rows ++ [job]
  distinct := by
    rw [List.map_append, List.map_singleton, List.nodup_append_comm, List.singleton_append,
      List.nodup_cons]
    exact ⟨jobs.lookup_eq_none.mp hnew, jobs.distinct⟩

end JobTable

namespace Queue

variable (s : Queue)

def statusOf (id : Str) : Option JobStatus := s.jobs.statusOf id

/-- The row `claim` selects: the oldest queued one that nobody has locked. -/
def nextQueued : Option StoredJob :=
  ((s.jobs.rows.filter fun row ↦ row.status == .queued && (s.locks row.id).isNone).insertionSort
    fun a b ↦ a.submittedAt ≤ b.submittedAt).head?

def insert (p : ℕ) (job : StoredJob) : Option Queue :=
  match s.submits p with
  | none => some { s with submits := Function.update s.submits p (some job) }
  | some _ => none

/-- The commit of `submit`; `id` is the primary key. -/
def commitSubmit (p : ℕ) : Option Queue :=
  match s.submits p with
  | some job =>
    if hnew : s.jobs.lookup job.id = none then
      some { s with
        jobs := s.jobs.insert job hnew
        submits := Function.update s.submits p none }
    else none
  | none => none

def select (c : ℕ) : Option Queue :=
  match s.claims c with
  | .idle =>
    match s.nextQueued with
    | none => some s
    | some row => some { s with
        claims := Function.update s.claims c (.selected row.id)
        locks := Function.update s.locks row.id (some c) }
  | _ => none

def start (c : ℕ) (now : Str) : Option Queue :=
  match s.claims c with
  | .selected id => some { s with claims := Function.update s.claims c (.started id now) }
  | _ => none

/-- The commit of `claim`, which hands the job to `_execute`. -/
def commitClaim (c : ℕ) : Option Queue :=
  match s.claims c with
  | .started id now => some { s with
      jobs := s.jobs.update id (·.start now) fun _ ↦ rfl
      claims := Function.update s.claims c .idle
      locks := Function.update s.locks id none
      executing := id :: s.executing
      history := .claimed id :: s.history }
  | _ => none

def rollbackClaim (c : ℕ) : Option Queue :=
  match (s.claims c).job with
  | some id => some { s with
      claims := Function.update s.claims c .idle
      locks := Function.update s.locks id none }
  | none => none

/-- The `UPDATE` of `finish`, by the execution of the job. -/
def finish (id : Str) (status : JobStatus) (artifacts : Json) (error : Option Str) (now : Str) :
    Option Queue :=
  if id ∈ s.executing ∧ status.isTerminal = true ∧ s.locks id = none then
    some { s with
      jobs := s.jobs.update id (·.finish status artifacts error now) fun _ ↦ rfl
      executing := s.executing.erase id }
  else none

/-- An execution that ends without its `UPDATE`. -/
def abandon (id : Str) : Option Queue :=
  if id ∈ s.executing then some { s with executing := s.executing.erase id } else none

def readStatus (x : ℕ) (id : Str) : Option Queue :=
  match s.cancels x, s.statusOf id with
  | .idle, none => some s
  | .idle, some status =>
    some { s with cancels := Function.update s.cancels x (.read id status) }
  | _, _ => none

/-- `UPDATE jobs SET status = 'cancelled' ... WHERE id = $1 AND status = 'queued'` -/
def flip (x : ℕ) (now : Str) : Option Queue :=
  match s.cancels x with
  | .read id .queued =>
    if s.locks id = none then
      if s.statusOf id = some .queued then
        some { s with
          jobs := s.jobs.update id (·.cancel now) fun _ ↦ rfl
          cancels := Function.update s.cancels x (.flipped id) }
      else some { s with cancels := Function.update s.cancels x (.lost id) }
    else none
  | _ => none

def reread (x : ℕ) : Option Queue :=
  match s.cancels x with
  | .lost id =>
    match s.statusOf id with
    | some status => some { s with cancels := Function.update s.cancels x (.reread id status) }
    | none => none
  | _ => none

/-- What `cancel` returns for a status it has read. -/
def answerOf : JobStatus → CancelAnswer
  | .running => .signalled
  | status => .status status

def answer (x : ℕ) : Option Queue :=
  match s.cancels x with
  | .flipped id => some { s with cancels := Function.update s.cancels x (.answered id .cancelled) }
  | .reread id status =>
    some { s with cancels := Function.update s.cancels x (.answered id (answerOf status)) }
  | .read id status =>
    if status = .queued then none
    else some { s with cancels := Function.update s.cancels x (.answered id (answerOf status)) }
  | _ => none

/-- `requeue_orphans`, which runs while no worker is executing. -/
def requeue : Option Queue :=
  if s.executing = [] then
    some { s with
      jobs := s.jobs.modify StoredJob.requeue StoredJob.requeue_id
      history := ((s.jobs.rows.filter fun row ↦ row.status == .running).map fun row ↦
        .requeued row.id) ++ s.history }
  else none

end Queue

/-- The row `submit` inserts. -/
def newJob (id repository workspace params : Str) (submittedAt : ℤ) : StoredJob where
  id := id
  status := .queued
  repository := repository
  workspace := workspace
  params := params
  submittedAt := submittedAt

/-- The statements of all sessions, one at a time. -/
def queueMachine : Machine Queue QueueAction where
  step s
    | .insert p id repository workspace params submittedAt =>
      s.insert p (newJob id repository workspace params submittedAt)
    | .commitSubmit p => s.commitSubmit p
    | .rollbackSubmit p => some { s with submits := Function.update s.submits p none }
    | .select c => s.select c
    | .start c now => s.start c now
    | .commitClaim c => s.commitClaim c
    | .rollbackClaim c => s.rollbackClaim c
    | .finish id status artifacts error now => s.finish id status artifacts error now
    | .abandon id => s.abandon id
    | .readStatus x id => s.readStatus x id
    | .flip x now => s.flip x now
    | .reread x => s.reread x
    | .answer x => s.answer x
    | .requeue => s.requeue

/-! ## What should hold -/

/-- The moves of a job's status in one step. -/
inductive StatusMoves (a : QueueAction) : Option JobStatus → Option JobStatus → Prop
  | stays (status : Option JobStatus) : StatusMoves a status status
  | submitted : StatusMoves a none (some .queued)
  | claimed : StatusMoves a (some .queued) (some .running)
  | cancelled : StatusMoves a (some .queued) (some .cancelled)
  | finished {status : JobStatus} (hterminal : status.isTerminal = true) :
      StatusMoves a (some .running) (some status)
  | requeued (ha : a = .requeue) : StatusMoves a (some .running) (some .queued)

/-- The job was claimed and has not been requeued since. -/
def Held (id : Str) : List JobEvent → Prop
  | [] => False
  | .claimed other :: earlier => other = id ∨ Held id earlier
  | .requeued other :: earlier => other ≠ id ∧ Held id earlier

/-- No job is claimed again without a requeue in between. -/
def ClaimedOnce : List JobEvent → Prop
  | [] => True
  | .claimed id :: earlier => ¬ Held id earlier ∧ ClaimedOnce earlier
  | .requeued _ :: earlier => ClaimedOnce earlier

/-- The state machine of jobs, from a state on. -/
structure Queue.Lawful (s : Queue) : Prop where
  moves : ∀ a t, queueMachine.step s a = some t →
    ∀ id, StatusMoves a (s.statusOf id) (t.statusOf id)
  terminal : ∀ later t, queueMachine.run s later = some t → ∀ id status,
    s.statusOf id = some status → status.isTerminal = true → t.statusOf id = some status
  once : ClaimedOnce s.history
  cancelled : ∀ x id, s.cancels x = .answered id .cancelled → ∀ later t,
    queueMachine.run s later = some t →
      t.history.count (.claimed id) = s.history.count (.claimed id)

/-- A table that nobody is using. -/
def Queue.unused (jobs : JobTable) : Queue := { jobs := jobs }

/-! ## The table by status -/

namespace JobTable

variable {jobs : JobTable}

theorem lookup_of_mem {row : StoredJob} (h : row ∈ jobs.rows) : jobs.lookup row.id = some row := by
  cases hlookup : jobs.lookup row.id with
  | none => exact absurd (List.mem_map_of_mem h) (jobs.lookup_eq_none.mp hlookup)
  | some other =>
    have hmem : other ∈ jobs.rows := List.mem_of_find?_eq_some hlookup
    rw [List.inj_on_of_nodup_map jobs.distinct hmem h (jobs.id_of_lookup hlookup)]

theorem statusOf_of_mem {row : StoredJob} (h : row ∈ jobs.rows) :
    jobs.statusOf row.id = some row.status := by
  rw [statusOf, lookup_of_mem h, Option.map_some]

theorem lookup_modify {f : StoredJob → StoredJob} (hf : ∀ row, (f row).id = row.id) (id : Str) :
    (jobs.modify f hf).lookup id = (jobs.lookup id).map f := by
  unfold lookup modify
  rw [List.find?_map]
  congr 2
  funext row
  exact congrArg (· == id) (hf row)

/-- An `UPDATE` of one row changes the status of its job only. -/
theorem statusOf_update {f : StoredJob → StoredJob} (hf : ∀ row, (f row).id = row.id) {id : Str}
    {before after : JobStatus} (hbefore : jobs.statusOf id = some before)
    (hafter : ∀ row, (f row).status = after) :
    (jobs.update id f hf).statusOf = Function.update jobs.statusOf id (some after) := by
  funext other
  rw [statusOf, update, lookup_modify]
  cases hlookup : jobs.lookup other with
  | none =>
    have hother : other ≠ id := by
      intro hsame
      rw [statusOf, ← hsame, hlookup] at hbefore
      cases hbefore
    rw [Function.update_of_ne hother, statusOf, hlookup]
    rfl
  | some row =>
    rw [Option.map_some, Option.map_some, jobs.id_of_lookup hlookup]
    by_cases hother : other = id
    · rw [if_pos hother, hafter, hother, Function.update_self]
    · rw [if_neg hother, Function.update_of_ne hother, statusOf, hlookup, Option.map_some]

theorem statusOf_insert {job : StoredJob} (hnew : jobs.lookup job.id = none) :
    (jobs.insert job hnew).statusOf = Function.update jobs.statusOf job.id (some job.status) := by
  funext other
  unfold statusOf lookup insert at *
  rw [List.find?_append]
  by_cases hother : other = job.id
  · have hself : [job].find? (fun row ↦ row.id == job.id) = some job :=
      List.find?_cons_of_pos (beq_self_eq_true job.id)
    rw [hother, Function.update_self, hnew, Option.none_or, hself, Option.map_some]
  · rw [Function.update_of_ne hother, List.find?_cons_of_neg (by simpa using Ne.symm hother),
      List.find?_nil, Option.or_none]

theorem statusOf_requeue (id : Str) :
    (jobs.modify StoredJob.requeue StoredJob.requeue_id).statusOf id =
      (jobs.statusOf id).map fun status ↦ if status = .running then .queued else status := by
  rw [statusOf, lookup_modify, statusOf, Option.map_map, Option.map_map]
  congr 1
  funext row
  rw [Function.comp_apply, Function.comp_apply, StoredJob.requeue]
  split <;> rfl

end JobTable

namespace Queue

/-- The invariant, by the statuses of the table. -/
structure Inv (s : Queue) : Prop where
  submits : ∀ p job, s.submits p = some job → job.status = .queued
  claims : ∀ c id, (s.claims c).job = some id → s.locks id = some c ∧ s.statusOf id = some .queued
  nodup : s.executing.Nodup
  executing : ∀ id ∈ s.executing, s.statusOf id = some .running
  cancels : ∀ x id, (s.cancels x).cancelled = some id → s.statusOf id = some .cancelled
  held : ∀ id, Held id s.history → ∃ status, s.statusOf id = some status ∧ status ≠ .queued
  once : ClaimedOnce s.history

variable {s : Queue}

/-- A change of one job's status leaves every status it did not have before. -/
theorem statusOf_kept {t : Queue} {id other : Str} {new status : JobStatus}
    (hstatus : t.statusOf = Function.update s.statusOf id (some new))
    (hother : s.statusOf other = some status) (hne : s.statusOf id ≠ some status) :
    t.statusOf other = some status := by
  have hids : other ≠ id := by
    intro hsame
    exact hne (hsame ▸ hother)
  rw [hstatus, Function.update_of_ne hids]
  exact hother

theorem moves_update {t : Queue} {a : QueueAction} {id : Str} {new : Option JobStatus}
    (hstatus : t.statusOf = Function.update s.statusOf id new)
    (hmove : StatusMoves a (s.statusOf id) new) (other : Str) :
    StatusMoves a (s.statusOf other) (t.statusOf other) := by
  rw [hstatus]
  by_cases hother : other = id
  · rw [hother, Function.update_self]
    exact hmove
  · rw [Function.update_of_ne hother]
    exact .stays _

theorem nextQueued_spec {row : StoredJob} (h : s.nextQueued = some row) :
    s.statusOf row.id = some .queued ∧ s.locks row.id = none := by
  have hmem := List.mem_of_head? h
  rw [List.mem_insertionSort, List.mem_filter, Bool.and_eq_true, Option.isNone_iff_eq_none] at hmem
  refine ⟨?_, hmem.2.2⟩
  rw [statusOf, JobTable.statusOf_of_mem hmem.1, eq_of_beq hmem.2.1]

/-! ## Steps -/

/-- What every step does: it keeps the invariant, moves statuses as allowed and claims queued jobs
only. -/
structure Keeps (a : QueueAction) (s t : Queue) : Prop where
  inv : t.Inv
  moves : ∀ id, StatusMoves a (s.statusOf id) (t.statusOf id)
  claims : ∀ id, s.statusOf id ≠ some .queued →
    t.history.count (.claimed id) = s.history.count (.claimed id)

/-- A step that changes neither a status nor the history. -/
theorem Keeps.same {a : QueueAction} {t : Queue} (ht : t.Inv) (hstatus : t.statusOf = s.statusOf)
    (hhistory : t.history = s.history) : Keeps a s t where
  inv := ht
  moves id := by
    rw [hstatus]
    exact .stays _
  claims _ _ := by rw [hhistory]

theorem keeps_insert (h : s.Inv) {a : QueueAction} {p : ℕ} {job : StoredJob}
    (hjob : job.status = .queued) {t : Queue} (hstep : s.insert p job = some t) : Keeps a s t := by
  unfold insert at hstep
  split at hstep
  · refine Option.some.inj hstep ▸
      .same { h with submits := fun q other hq ↦ ?_ } rfl rfl
    change Function.update s.submits p (some job) q = some other at hq
    by_cases hqp : q = p
    · rw [hqp, Function.update_self, Option.some.injEq] at hq
      exact hq ▸ hjob
    · rw [Function.update_of_ne hqp] at hq
      exact h.submits q other hq
  · cases hstep

theorem Inv.submits_release (h : s.Inv) (p q : ℕ) (job : StoredJob)
    (hq : Function.update s.submits p none q = some job) : job.status = .queued := by
  by_cases hqp : q = p
  · rw [hqp, Function.update_self] at hq
    cases hq
  · rw [Function.update_of_ne hqp] at hq
    exact h.submits q job hq

theorem Inv.held_kept (h : s.Inv) {t : Queue} {id : Str} {new : JobStatus}
    (hstatus : t.statusOf = Function.update s.statusOf id (some new))
    (hnew : Held id s.history → new ≠ .queued) (other : Str) (hheld : Held other s.history) :
    ∃ status, t.statusOf other = some status ∧ status ≠ .queued := by
  rw [hstatus]
  by_cases hother : other = id
  · rw [hother, Function.update_self]
    exact ⟨new, rfl, hnew (hother ▸ hheld)⟩
  · rw [Function.update_of_ne hother]
    exact h.held other hheld

/-- The commit of a `submit`. -/
theorem keeps_commitSubmit (h : s.Inv) {a : QueueAction} {p : ℕ} {t : Queue}
    (hstep : s.commitSubmit p = some t) : Keeps a s t := by
  unfold commitSubmit at hstep
  split at hstep
  · next job hjob =>
    split at hstep
    · next hnew =>
      have hnone : s.statusOf job.id = none := by
        rw [statusOf, JobTable.statusOf, hnew, Option.map_none]
      have hstatus : t.statusOf = Function.update s.statusOf job.id (some .queued) := by
        rw [← Option.some.inj hstep, ← h.submits p job hjob]
        exact JobTable.statusOf_insert hnew
      have hkept : ∀ id status, s.statusOf id = some status → t.statusOf id = some status :=
        fun id status hid ↦ statusOf_kept hstatus hid (by simp [hnone])
      have hhistory : t.history = s.history := by rw [← Option.some.inj hstep]
      refine ⟨?_, moves_update hstatus (hnone ▸ .submitted), fun _ _ ↦ by rw [hhistory]⟩
      obtain rfl := Option.some.inj hstep
      exact
        { submits := h.submits_release p
          claims := fun c id hid ↦ ⟨(h.claims c id hid).1, hkept _ _ (h.claims c id hid).2⟩
          nodup := h.nodup
          executing := fun id hid ↦ hkept _ _ (h.executing id hid)
          cancels := fun x id hid ↦ hkept _ _ (h.cancels x id hid)
          held := h.held_kept hstatus fun hheld ↦ by
            obtain ⟨status, hsome, -⟩ := h.held job.id hheld
            rw [hnone] at hsome
            cases hsome
          once := h.once }
    · cases hstep
  · cases hstep

/-- A claim's phase and one lock change together. -/
theorem Inv.claims_update (h : s.Inv) {c : ℕ} {id : Str} {phase : ClaimPhase} {lock : Option ℕ}
    (hphase : ∀ other, phase.job = some other → other = id ∧ lock = some c ∧
      s.statusOf id = some .queued)
    (hlock : s.locks id = none ∨ s.locks id = some c) (d : ℕ) (other : Str)
    (hd : (Function.update s.claims c phase d).job = some other) :
    Function.update s.locks id lock other = some d ∧ s.statusOf other = some .queued := by
  by_cases hdc : d = c
  · rw [hdc, Function.update_self] at hd
    obtain ⟨rfl, hheld, hqueued⟩ := hphase other hd
    rw [Function.update_self, hdc]
    exact ⟨hheld, hqueued⟩
  · rw [Function.update_of_ne hdc] at hd
    obtain ⟨hheld, hqueued⟩ := h.claims d other hd
    have hother : other ≠ id := by
      intro hsame
      rw [hsame] at hheld
      rcases hlock with hfree | hmine
      · rw [hfree] at hheld
        cases hheld
      · rw [hmine, Option.some.injEq] at hheld
        exact hdc hheld.symm
    rw [Function.update_of_ne hother]
    exact ⟨hheld, hqueued⟩

theorem keeps_select (h : s.Inv) {a : QueueAction} {c : ℕ} {t : Queue}
    (hstep : s.select c = some t) : Keeps a s t := by
  unfold select at hstep
  split at hstep
  · split at hstep
    · exact Option.some.inj hstep ▸ .same h rfl rfl
    · next row hrow =>
      obtain ⟨hqueued, hfree⟩ := nextQueued_spec hrow
      refine Option.some.inj hstep ▸ .same { h with claims := ?_ } rfl rfl
      refine h.claims_update (fun other hother ↦ ?_) (.inl hfree)
      exact ⟨(Option.some.inj hother).symm, rfl, hqueued⟩
  · cases hstep

theorem keeps_start (h : s.Inv) {a : QueueAction} {c : ℕ} {now : Str} {t : Queue}
    (hstep : s.start c now = some t) : Keeps a s t := by
  unfold start at hstep
  split at hstep
  · next id hphase =>
    refine Option.some.inj hstep ▸
      .same { h with claims := fun d other hd ↦ h.claims d other ?_ } rfl rfl
    change (Function.update s.claims c (.started id now) d).job = some other at hd
    by_cases hdc : d = c
    · rw [hdc, Function.update_self] at hd
      rw [hdc, hphase]
      exact hd
    · rw [Function.update_of_ne hdc] at hd
      exact hd
  · cases hstep

theorem keeps_rollbackClaim (h : s.Inv) {a : QueueAction} {c : ℕ} {t : Queue}
    (hstep : s.rollbackClaim c = some t) : Keeps a s t := by
  unfold rollbackClaim at hstep
  split at hstep
  · next id hphase =>
    refine Option.some.inj hstep ▸ .same { h with claims := ?_ } rfl rfl
    exact h.claims_update (fun other hother ↦ by cases hother) (.inr (h.claims c id hphase).1)
  · cases hstep

/-- The commit of a `claim`: its job was queued and in nobody's hands. -/
theorem keeps_commitClaim (h : s.Inv) {a : QueueAction} {c : ℕ} {t : Queue}
    (hstep : s.commitClaim c = some t) : Keeps a s t := by
  unfold commitClaim at hstep
  split at hstep
  · next id now hphase =>
    obtain ⟨hlock, hqueued⟩ := h.claims c id (by rw [hphase]; rfl)
    have hstatus : t.statusOf = Function.update s.statusOf id (some .running) := by
      rw [← Option.some.inj hstep]
      exact JobTable.statusOf_update (f := (·.start now)) (fun _ ↦ rfl) hqueued fun _ ↦ rfl
    have hkept : ∀ other status, s.statusOf other = some status → status ≠ .queued →
        t.statusOf other = some status :=
      fun other status hother hne ↦ statusOf_kept hstatus hother (by simp [hqueued, hne.symm])
    have hfree : ¬ Held id s.history := by
      intro hheld
      obtain ⟨status, hsome, hne⟩ := h.held id hheld
      rw [hqueued, Option.some.injEq] at hsome
      exact hne hsome.symm
    have hcount : ∀ other, s.statusOf other ≠ some .queued →
        t.history.count (.claimed other) = s.history.count (.claimed other) := by
      intro other hne
      have hother : JobEvent.claimed id ≠ .claimed other := by
        intro hsame
        exact hne (JobEvent.claimed.inj hsame ▸ hqueued)
      rw [← Option.some.inj hstep]
      exact List.count_cons_of_ne hother
    refine ⟨?_, moves_update hstatus (hqueued ▸ .claimed), hcount⟩
    obtain rfl := Option.some.inj hstep
    exact
      { submits := h.submits
        claims := fun d other hd ↦ by
          have hclaims := @Inv.claims_update s h c id .idle none
            (fun _ hother ↦ by cases hother) (.inr hlock) d other hd
          refine ⟨hclaims.1, ?_⟩
          have hother : other ≠ id := by
            intro hsame
            rw [hsame, Function.update_self] at hclaims
            cases hclaims.1
          rw [hstatus, Function.update_of_ne hother]
          exact hclaims.2
        nodup := by
          refine List.nodup_cons.mpr ⟨fun hmem ↦ ?_, h.nodup⟩
          have hrunning := h.executing id hmem
          rw [hqueued] at hrunning
          cases hrunning
        executing := fun other hother ↦ by
          rcases List.mem_cons.mp hother with hsame | hother
          · rw [hstatus, hsame, Function.update_self]
          · exact hkept _ _ (h.executing other hother) (by decide)
        cancels := fun x other hother ↦ hkept _ _ (h.cancels x other hother) (by decide)
        held := fun other hheld ↦ by
          rcases hheld with hsame | hheld
          · rw [hstatus, ← hsame, Function.update_self]
            exact ⟨_, rfl, by decide⟩
          · obtain ⟨status, hsome, hne⟩ := h.held other hheld
            exact ⟨status, hkept _ _ hsome hne, hne⟩
        once := ⟨hfree, h.once⟩ }
  · cases hstep

theorem keeps_finish (h : s.Inv) {a : QueueAction} {id : Str} {status : JobStatus}
    {artifacts : Json} {error : Option Str} {now : Str} {t : Queue}
    (hstep : s.finish id status artifacts error now = some t) : Keeps a s t := by
  unfold finish at hstep
  split at hstep
  · next henabled =>
    obtain ⟨hmem, hterminal, -⟩ := henabled
    have hrunning := h.executing id hmem
    have hstatus : t.statusOf = Function.update s.statusOf id (some status) := by
      rw [← Option.some.inj hstep]
      exact JobTable.statusOf_update (f := (·.finish status artifacts error now)) (fun _ ↦ rfl)
        hrunning fun _ ↦ rfl
    have hkept : ∀ other before, s.statusOf other = some before → before ≠ .running →
        t.statusOf other = some before :=
      fun other before hother hne ↦ statusOf_kept hstatus hother (by simp [hrunning, hne.symm])
    have hhistory : t.history = s.history := by rw [← Option.some.inj hstep]
    refine ⟨?_, moves_update hstatus (hrunning ▸ .finished hterminal), fun _ _ ↦ by rw [hhistory]⟩
    obtain rfl := Option.some.inj hstep
    exact
      { submits := h.submits
        claims := fun c other hother ↦
          ⟨(h.claims c other hother).1, hkept _ _ (h.claims c other hother).2 (by decide)⟩
        nodup := h.nodup.erase id
        executing := fun other hother ↦ by
          obtain ⟨hne, hmem⟩ := (List.Nodup.mem_erase_iff h.nodup).mp hother
          rw [hstatus, Function.update_of_ne hne]
          exact h.executing other hmem
        cancels := fun x other hother ↦ hkept _ _ (h.cancels x other hother) (by decide)
        held := h.held_kept hstatus fun _ ↦ by
          rintro rfl
          cases hterminal
        once := h.once }
  · cases hstep

theorem keeps_abandon (h : s.Inv) {a : QueueAction} {id : Str} {t : Queue}
    (hstep : s.abandon id = some t) : Keeps a s t := by
  unfold abandon at hstep
  split at hstep
  · exact Option.some.inj hstep ▸
      .same { h with
        nodup := h.nodup.erase id
        executing := fun other hother ↦ h.executing other (List.mem_of_mem_erase hother) } rfl rfl
  · cases hstep

/-- A step of a `cancel` that leaves the table as it is. -/
theorem keeps_cancels (h : s.Inv) {a : QueueAction} {x : ℕ} {phase : CancelPhase}
    (hphase : ∀ id, phase.cancelled = some id → s.statusOf id = some .cancelled) :
    Keeps a s { s with cancels := Function.update s.cancels x phase } := by
  refine .same { h with cancels := fun y id hid ↦ ?_ } rfl rfl
  change (Function.update s.cancels x phase y).cancelled = some id at hid
  by_cases hyx : y = x
  · rw [hyx, Function.update_self] at hid
    exact hphase id hid
  · rw [Function.update_of_ne hyx] at hid
    exact h.cancels y id hid

theorem keeps_readStatus (h : s.Inv) {a : QueueAction} {x : ℕ} {id : Str} {t : Queue}
    (hstep : s.readStatus x id = some t) : Keeps a s t := by
  unfold readStatus at hstep
  split at hstep
  · exact Option.some.inj hstep ▸ .same h rfl rfl
  · exact Option.some.inj hstep ▸ keeps_cancels h nofun
  · cases hstep

/-- A job that is flipped was queued and is locked by no claim. -/
theorem keeps_flip (h : s.Inv) {a : QueueAction} {x : ℕ} {now : Str} {t : Queue}
    (hstep : s.flip x now = some t) : Keeps a s t := by
  unfold flip at hstep
  split at hstep
  · next id hphase =>
    split at hstep
    · next hfree =>
      split at hstep
      · next hqueued =>
        have hstatus : t.statusOf = Function.update s.statusOf id (some .cancelled) := by
          rw [← Option.some.inj hstep]
          exact JobTable.statusOf_update (f := (·.cancel now)) (fun _ ↦ rfl) hqueued fun _ ↦ rfl
        have hkept : ∀ other status, s.statusOf other = some status → status ≠ .queued →
            t.statusOf other = some status :=
          fun other status hother hne ↦ statusOf_kept hstatus hother (by simp [hqueued, hne.symm])
        have hhistory : t.history = s.history := by rw [← Option.some.inj hstep]
        refine ⟨?_, moves_update hstatus (hqueued ▸ .cancelled), fun _ _ ↦ by rw [hhistory]⟩
        obtain rfl := Option.some.inj hstep
        exact
          { submits := h.submits
            claims := fun c other hother ↦ by
              obtain ⟨hheld, hother'⟩ := h.claims c other hother
              have hne : other ≠ id := by
                intro hsame
                rw [hsame, hfree] at hheld
                cases hheld
              rw [hstatus, Function.update_of_ne hne]
              exact ⟨hheld, hother'⟩
            nodup := h.nodup
            executing := fun other hother ↦ hkept _ _ (h.executing other hother) (by decide)
            cancels := fun y other hother ↦ by
              change (Function.update s.cancels x (.flipped id) y).cancelled = some other at hother
              by_cases hyx : y = x
              · rw [hyx, Function.update_self] at hother
                rw [hstatus, ← Option.some.inj hother, Function.update_self]
              · rw [Function.update_of_ne hyx] at hother
                exact hkept _ _ (h.cancels y other hother) (by decide)
            held := h.held_kept hstatus fun _ ↦ by decide
            once := h.once }
      · exact Option.some.inj hstep ▸ keeps_cancels h nofun
    · cases hstep
  · cases hstep

theorem keeps_reread (h : s.Inv) {a : QueueAction} {x : ℕ} {t : Queue}
    (hstep : s.reread x = some t) : Keeps a s t := by
  unfold reread at hstep
  split at hstep
  · split at hstep
    · exact Option.some.inj hstep ▸ keeps_cancels h nofun
    · cases hstep
  · cases hstep

theorem answerOf_cancelled (id : Str) (status : JobStatus) :
    (CancelPhase.answered id (answerOf status)).cancelled = none := by
  cases status <;> rfl

theorem keeps_answer (h : s.Inv) {a : QueueAction} {x : ℕ} {t : Queue}
    (hstep : s.answer x = some t) : Keeps a s t := by
  unfold answer at hstep
  split at hstep
  · next id hphase =>
    refine Option.some.inj hstep ▸ keeps_cancels h fun other hother ↦ h.cancels x other ?_
    rw [hphase]
    exact hother
  · refine Option.some.inj hstep ▸ keeps_cancels h fun other hother ↦ ?_
    rw [answerOf_cancelled] at hother
    cases hother
  · split at hstep
    · cases hstep
    · refine Option.some.inj hstep ▸ keeps_cancels h fun other hother ↦ ?_
      rw [answerOf_cancelled] at hother
      cases hother
  · cases hstep

theorem held_requeue {id : Str} {rows : List StoredJob} {earlier : List JobEvent} :
    Held id (rows.map (fun row ↦ .requeued row.id) ++ earlier) ↔
      (∀ row ∈ rows, row.id ≠ id) ∧ Held id earlier := by
  induction rows with
  | nil => simp
  | cons row rest ih =>
    rw [List.forall_mem_cons, and_assoc, ← ih]
    exact Iff.rfl

theorem claimedOnce_requeue {rows : List StoredJob} {earlier : List JobEvent}
    (h : ClaimedOnce earlier) :
    ClaimedOnce (rows.map (fun row ↦ .requeued row.id) ++ earlier) := by
  induction rows with
  | nil => exact h
  | cons row rest ih => exact ih

theorem count_requeue {id : Str} {rows : List StoredJob} {earlier : List JobEvent} :
    (rows.map (fun row ↦ JobEvent.requeued row.id) ++ earlier).count (.claimed id) =
      earlier.count (.claimed id) := by
  rw [List.count_append, List.count_eq_zero.mpr, Nat.zero_add]
  intro hmem
  obtain ⟨row, -, hrow⟩ := List.mem_map.mp hmem
  cases hrow

/-- While nobody executes, every running row goes back to the queue. -/
theorem keeps_requeue (h : s.Inv) {t : Queue} (hstep : s.requeue = some t) :
    Keeps .requeue s t := by
  unfold requeue at hstep
  split at hstep
  · next hidle =>
    obtain rfl := Option.some.inj hstep
    have hstatus := @JobTable.statusOf_requeue s.jobs
    have hkept : ∀ id status, s.statusOf id = some status → status ≠ .running →
        (s.jobs.modify StoredJob.requeue StoredJob.requeue_id).statusOf id = some status := by
      intro id status hid hne
      rw [hstatus, show s.jobs.statusOf id = some status from hid, Option.map_some, if_neg hne]
    refine ⟨?_, fun id ↦ ?_, fun id _ ↦ count_requeue⟩
    · exact
        { submits := h.submits
          claims := fun c id hid ↦
            ⟨(h.claims c id hid).1, hkept _ _ (h.claims c id hid).2 (by decide)⟩
          nodup := h.nodup
          executing := fun id hid ↦ by
            rw [show s.executing = [] from hidle] at hid
            cases hid
          cancels := fun x id hid ↦ hkept _ _ (h.cancels x id hid) (by decide)
          held := fun id hheld ↦ by
            obtain ⟨hnot, hearlier⟩ := held_requeue.mp hheld
            obtain ⟨status, hsome, hne⟩ := h.held id hearlier
            refine ⟨status, hkept _ _ hsome ?_, hne⟩
            rintro rfl
            obtain ⟨row, hrow, hrunning⟩ := Option.map_eq_some_iff.mp hsome
            refine hnot row (List.mem_filter.mpr ⟨List.mem_of_find?_eq_some hrow, ?_⟩)
              (s.jobs.id_of_lookup hrow)
            rw [hrunning]
            rfl
          once := claimedOnce_requeue h.once }
    · change StatusMoves _ (s.jobs.statusOf id) _
      rw [statusOf, hstatus]
      cases s.jobs.statusOf id with
      | none => exact .stays _
      | some status =>
        rw [Option.map_some]
        split
        · next hrunning =>
          rw [hrunning]
          exact .requeued rfl
        · exact .stays _
  · cases hstep

/-- Every step of every session. -/
theorem keeps_step (h : s.Inv) {a : QueueAction} {t : Queue}
    (hstep : queueMachine.step s a = some t) : Keeps a s t := by
  cases a with
  | insert p id repository workspace params submittedAt => exact keeps_insert h rfl hstep
  | commitSubmit p => exact keeps_commitSubmit h hstep
  | rollbackSubmit p =>
    exact Option.some.inj hstep ▸ .same { h with submits := h.submits_release p } rfl rfl
  | select c => exact keeps_select h hstep
  | start c now => exact keeps_start h hstep
  | commitClaim c => exact keeps_commitClaim h hstep
  | rollbackClaim c => exact keeps_rollbackClaim h hstep
  | finish id status artifacts error now => exact keeps_finish h hstep
  | abandon id => exact keeps_abandon h hstep
  | readStatus x id => exact keeps_readStatus h hstep
  | flip x now => exact keeps_flip h hstep
  | reread x => exact keeps_reread h hstep
  | answer x => exact keeps_answer h hstep
  | requeue => exact keeps_requeue h hstep

theorem unused_inv (jobs : JobTable) : (unused jobs).Inv where
  submits := nofun
  claims := nofun
  nodup := List.nodup_nil
  executing := nofun
  cancels := nofun
  held := nofun
  once := trivial

/-- A final status is never left, and its job never claimed. -/
theorem final_run (h : s.Inv) {id : Str} {status : JobStatus}
    (hstatus : s.statusOf id = some status) (hterminal : status.isTerminal = true)
    {later : List QueueAction} {t : Queue} (hrun : queueMachine.run s later = some t) :
    t.statusOf id = some status ∧
      t.history.count (.claimed id) = s.history.count (.claimed id) := by
  have hqueued : status ≠ .queued := by
    rintro rfl
    cases hterminal
  have hfinal := queueMachine.invariant
    (I := fun u ↦ u.Inv ∧ u.statusOf id = some status ∧
      u.history.count (.claimed id) = s.history.count (.claimed id))
    (fun u a v hu hstep ↦ by
      obtain ⟨hinv, hsome, hcount⟩ := hu
      have hkeeps := keeps_step hinv hstep
      refine ⟨hkeeps.inv, ?_, (hkeeps.claims id (by simp [hsome, hqueued])).trans hcount⟩
      have hmoves := hkeeps.moves id
      rw [hsome] at hmoves
      generalize v.statusOf id = after at hmoves
      cases hmoves with
      | stays => rfl
      | claimed => cases hterminal
      | cancelled => cases hterminal
      | finished _ => cases hterminal
      | requeued _ => cases hterminal)
    hrun ⟨h, hstatus, rfl⟩
  exact hfinal.2

theorem Inv.lawful (h : s.Inv) : s.Lawful where
  moves _ _ hstep := (keeps_step h hstep).moves
  terminal _ _ hrun _ _ hstatus hterminal := (final_run h hstatus hterminal hrun).1
  once := h.once
  cancelled x id hx _ _ hrun := by
    have hcancelled := h.cancels x id (by rw [hx]; rfl)
    exact (final_run h hcancelled rfl hrun).2

end Queue

/-- Over every order of the statements: statuses move as the state machine has it, final rows stay,
nothing is claimed twice without a requeue, and what `cancel` flipped is never claimed. -/
theorem jobs_lawful {jobs : JobTable} {actions : List QueueAction} {s : Queue}
    (hrun : queueMachine.run (Queue.unused jobs) actions = some s) : s.Lawful :=
  (queueMachine.invariant (fun _ _ _ h hstep ↦ (Queue.keeps_step h hstep).inv) hrun
    (Queue.unused_inv jobs)).lawful

/-! ## A job that is requeued and one that is cancelled -/

def oneJob : JobTable where
  rows := [newJob (str "a") (str "r") (str "w") (str "\x7b\x7d") 0]
  distinct := List.nodup_singleton _

/-- `a` is claimed, abandoned, requeued, claimed again and finished while `b` is cancelled. -/
def twoJobs : List QueueAction :=
  [.insert 0 (str "b") (str "r") (str "w") (str "\x7b\x7d") 1, .select 0, .start 0 (str "t0"),
    .commitSubmit 0, .readStatus 0 (str "b"), .commitClaim 0, .readStatus 1 (str "a"),
    .abandon (str "a"), .requeue, .select 1, .flip 0 (str "t1"), .start 1 (str "t2"),
    .commitClaim 1, .answer 0, .answer 1, .finish (str "a") .complete (.arr []) none (str "t3")]

theorem jobs_lawful_twoJobs :
    ∃ s, queueMachine.run (Queue.unused oneJob) twoJobs = some s ∧ s.Lawful := by
  have hsome : (queueMachine.run (Queue.unused oneJob) twoJobs).isSome = true := by
    decide +kernel
  obtain ⟨s, hs⟩ := Option.isSome_iff_exists.mp hsome
  exact ⟨s, hs, jobs_lawful hs⟩

end DatumSync.Jobs
