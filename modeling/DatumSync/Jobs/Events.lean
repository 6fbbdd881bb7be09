import DatumSync.Foundation.Cursor
import DatumSync.Foundation.Machine
import DatumSync.Jobs.Record

/-!
# One event stream beside the worker

The machine interleaves the worker that executes a job, other jobs and sessions, the delivery of
notifications, and one `job_events` generator for that job.  A row write and its `NOTIFY` are two
steps of the worker; a notification sent while the generator listens is on the wire until it is
delivered, and in the queue until it is consumed.
-/

namespace DatumSync.Jobs

open Python Foundation

structure LogRow where
  id : ℤ
  jobId : Str
  ts : Str
  level : Str
  message : Str
  deriving DecidableEq

/-- The table `job_log`; its ids are drawn from a sequence. -/
structure JobLog where
  rows : List LogRow
  nextId : ℤ
  increasing : Increasing LogRow.id rows
  bounded : ∀ row ∈ rows, row.id < nextId

/-- The columns of the `jobs` row that a status frame shows. -/
structure JobRow where
  id : Str
  status : JobStatus
  error : Option Str := none
  artifacts : Json := .arr []
  startedAt : Option Str := none
  completedAt : Option Str := none
  deriving DecidableEq

/-- The body of a notification on `job_events`, without the job id. -/
inductive Body where
  | status (status : JobStatus) (error : Option Str)
  | log (id : ℤ) (level message : Str)
  | progress (pct : Json) (message : Str)
  deriving DecidableEq

structure Notice where
  jobId : Str
  body : Body
  deriving DecidableEq

inductive Frame where
  | status (row : JobRow)
  | log (id : ℤ) (level message : Str) (ts : Option Str)
  | progress (pct : Json) (message : Str)
  | keepalive
  deriving DecidableEq

def Body.isLog : Body → Bool
  | log .. => true
  | _ => false

def Frame.isLog : Frame → Bool
  | log .. => true
  | _ => false

def maxNotifyText : ℕ := 2000

def truncate (text : Str) : Str :=
  if text.length ≤ maxNotifyText then text else text.take maxNotifyText ++ str "...[truncated]"

def queueMax : ℕ := 1000

def logLevel (level : Str) : Str :=
  if level ∈ [str "debug", str "info", str "warn", str "error"] then level else str "info"

def LogRow.body (row : LogRow) : Body := .log row.id row.level (truncate row.message)

def LogRow.frame (row : LogRow) : Frame := .log row.id row.level row.message (some row.ts)

namespace JobLog

def insert (log : JobLog) (jobId ts level message : Str) : JobLog where
  rows := log.rows ++ [⟨log.nextId, jobId, ts, level, message⟩]
  nextId := log.nextId + 1
  increasing := by
    refine List.pairwise_append.mpr ⟨log.increasing, List.pairwise_singleton _ _, ?_⟩
    intro row hrow other hother
    rw [List.mem_singleton.mp hother]
    exact log.bounded row hrow
  bounded := by
    intro row hrow
    rcases List.mem_append.mp hrow with hrow | hrow
    · exact (log.bounded row hrow).trans (Int.lt_succ _)
    · rw [List.mem_singleton.mp hrow]
      exact Int.lt_succ _

def rowsOf (log : JobLog) (jobId : Str) : List LogRow :=
  log.rows.filter fun row ↦ row.jobId == jobId

def getLog (log : JobLog) (jobId : Str) (afterId : ℤ) : List LogRow :=
  entriesAfter LogRow.id afterId (log.rowsOf jobId)

theorem rowsOf_increasing (log : JobLog) (jobId : Str) :
    Increasing LogRow.id (log.rowsOf jobId) :=
  List.Pairwise.filter _ log.increasing

theorem rowsOf_insert_self (log : JobLog) (jobId ts level message : Str) :
    (log.insert jobId ts level message).rowsOf jobId =
      log.rowsOf jobId ++ [⟨log.nextId, jobId, ts, level, message⟩] := by
  simp [insert, rowsOf, List.filter_append]

theorem rowsOf_insert_other (log : JobLog) {jobId other : Str} (ts level message : Str)
    (h : other ≠ jobId) : (log.insert other ts level message).rowsOf jobId = log.rowsOf jobId := by
  simp [insert, rowsOf, List.filter_append, h]

end JobLog

inductive WorkerPhase where
  | queued
  | running
  /-- The row is inserted, its `NOTIFY` is not sent. -/
  | logging (row : LogRow)
  /-- The row is final, its `NOTIFY` is not sent. -/
  | finishing
  | done
  deriving DecidableEq

inductive StreamPhase where
  | idle
  | listening
  /-- The status frame of `row` is emitted, the history is not read. -/
  | opened (row : JobRow)
  | streaming
  /-- A status notification was taken from the queue. -/
  | rereading (notified : JobStatus)
  | ended
  deriving DecidableEq

structure StreamState where
  job : JobRow
  log : JobLog
  worker : WorkerPhase
  /-- `submit` has sent its notification. -/
  announced : Bool
  phase : StreamPhase
  wire : List Notice
  queue : List Body
  cursor : ℤ
  frames : List Frame

inductive StreamAction where
  | claim (startedAt : Str)
  | insertLog (ts level message : Str)
  | notifyLog
  | progress (pct : Json) (message : Str)
  | updateFinal (status : JobStatus) (artifacts : Json) (error : Option Str) (completedAt : Str)
  | notifyFinal
  | cancelQueued (completedAt : Str)
  | notifyQueued
  | otherLog (jobId ts level message : Str)
  | otherNotice (notice : Notice)
  | listen
  | readStatus
  | readHistory
  | deliver
  | consume
  | reread
  | heartbeat
  deriving DecidableEq

/-- `pg_notify`: whoever does not listen never gets it. -/
def StreamState.send (s : StreamState) (notice : Notice) : StreamState :=
  if s.phase = .idle then s else { s with wire := s.wire ++ [notice] }

/-- `notify(conn, job_id, ...)` -/
def StreamState.notify (s : StreamState) (body : Body) : StreamState := s.send ⟨s.job.id, body⟩

/-- `on_notify`; a full queue loses its oldest entry. -/
def StreamState.onNotify (s : StreamState) (notice : Notice) : StreamState :=
  if notice.jobId ≠ s.job.id then s
  else { s with queue :=
    (if queueMax ≤ s.queue.length then s.queue.tail else s.queue) ++ [notice.body] }

def StreamState.insertLog (s : StreamState) (ts level message : Str) : StreamState :=
  { s with
    log := s.log.insert s.job.id ts (logLevel level) message
    worker := .logging ⟨s.log.nextId, s.job.id, ts, logLevel level, message⟩ }

/-- The loop body of `job_events` on one notification. -/
def StreamState.handle (s : StreamState) : Body → StreamState
  | .log id level message =>
    if id ≤ s.cursor then s
    else { s with cursor := id, frames := s.frames ++ [.log id level message none] }
  | .progress pct message => { s with frames := s.frames ++ [.progress pct message] }
  | .status status _ => { s with phase := .rereading status }

/-- The generator after reading the history. -/
def StreamState.replay (s : StreamState) (row : JobRow) : StreamState :=
  let entries := s.log.getLog s.job.id s.cursor
  { s with
    cursor := advance LogRow.id s.cursor entries
    frames := s.frames ++ entries.map LogRow.frame
    phase := if row.status.isTerminal then .ended else .streaming }

def streamStep (s : StreamState) : StreamAction → Option StreamState
  | .claim startedAt =>
    if s.worker = .queued then
      some ({ s with
        job := { s.job with status := .running, startedAt := some startedAt }
        worker := .running }.notify (.status .running none))
    else none
  | .insertLog ts level message =>
    if s.worker = .running then some (s.insertLog ts level message) else none
  | .notifyLog =>
    match s.worker with
    | .logging row => some ({ s with worker := .running }.notify row.body)
    | _ => none
  | .progress pct message =>
    if s.worker = .running then some (s.notify (.progress pct (truncate message))) else none
  | .updateFinal status artifacts error completedAt =>
    if s.worker = .running ∧ status.isTerminal then
      some { s with
        job := { s.job with
          status := status, artifacts := artifacts, error := error,
          completedAt := some completedAt }
        worker := .finishing }
    else none
  | .notifyFinal =>
    if s.worker = .finishing then
      some ({ s with worker := .done }.notify (.status s.job.status s.job.error))
    else none
  | .cancelQueued completedAt =>
    if s.worker = .queued then
      some { s with
        job := { s.job with status := .cancelled, completedAt := some completedAt }
        worker := .finishing }
    else none
  | .notifyQueued =>
    if s.announced then none
    else some ({ s with announced := true }.notify (.status .queued none))
  | .otherLog jobId ts level message =>
    if jobId ≠ s.job.id then
      some { s with log := s.log.insert jobId ts (logLevel level) message }
    else none
  | .otherNotice notice =>
    if notice.jobId ≠ s.job.id then some (s.send notice) else none
  | .listen => if s.phase = .idle then some { s with phase := .listening } else none
  | .readStatus =>
    if s.phase = .listening then
      some { s with phase := .opened s.job, frames := s.frames ++ [.status s.job] }
    else none
  | .readHistory =>
    match s.phase with
    | .opened row => some (s.replay row)
    | _ => none
  | .deliver =>
    match s.wire with
    | notice :: rest => some ({ s with wire := rest }.onNotify notice)
    | [] => none
  | .consume =>
    match s.phase, s.queue with
    | .streaming, body :: rest => some ({ s with queue := rest }.handle body)
    | _, _ => none
  | .reread =>
    match s.phase with
    | .rereading _ =>
      some { s with
        frames := s.frames ++ [.status s.job]
        phase := if s.job.status.isTerminal then .ended else .streaming }
    | _ => none
  | .heartbeat =>
    if s.phase = .streaming ∧ s.queue = [] then
      some { s with frames := s.frames ++ [.keepalive] }
    else none

def streamMachine : Machine StreamState StreamAction := ⟨streamStep⟩

/-- A queued job, with what earlier runs and other jobs logged, and a generator not yet started
that will resume after `afterId`. -/
def streamStart (jobId : Str) (log : JobLog) (afterId : ℤ) : StreamState where
  job := { id := jobId, status := .queued }
  log := log
  worker := .queued
  announced := false
  phase := .idle
  wire := []
  queue := []
  cursor := afterId
  frames := []

/-! ## What a stream should show -/

def StreamState.ownRows (s : StreamState) : List LogRow := s.log.rowsOf s.job.id

/-- The notifications of the job the generator has not consumed. -/
def StreamState.inbox (s : StreamState) : List Body :=
  s.queue ++ (s.wire.filter fun notice ↦ notice.jobId == s.job.id).map Notice.body

/-- The frame shows the row; a frame made from a notification has no timestamp, and the message as
far as a notification carries it. -/
def Shows (row : LogRow) (frame : Frame) : Prop :=
  frame = row.frame ∨ frame = .log row.id row.level (truncate row.message) none

def logIds (frames : List Frame) : List ℤ :=
  frames.filterMap fun
    | .log id _ _ _ => some id
    | _ => none

/-- The log frames are those of the job's rows after `afterId`, one for each, in the order of
their ids. -/
structure Complete (afterId : ℤ) (s : StreamState) : Prop where
  shown : List.Forall₂ Shows (entriesAfter LogRow.id afterId s.ownRows)
    (s.frames.filter Frame.isLog)
  increasing : (logIds s.frames).Pairwise (· < ·)

/-- A notification that is put into the queue finds room there. -/
def HasRoom (s : StreamState) (action : StreamAction) : Prop :=
  action = .deliver → s.queue.length < queueMax

instance (s : StreamState) (action : StreamAction) : Decidable (HasRoom s action) :=
  inferInstanceAs (Decidable (_ → _))

/-- A log notification the generator would still emit. -/
def Body.isNews (cursor : ℤ) : Body → Prop
  | log id _ _ => cursor < id
  | _ => False

/-- A final status is read only when no log notification is left to be emitted. -/
def CaughtUp (s : StreamState) : StreamAction → Prop
  | .reread => s.job.status.isTerminal = true → ∀ body ∈ s.inbox, ¬ body.isNews s.cursor
  | _ => True

end DatumSync.Jobs
