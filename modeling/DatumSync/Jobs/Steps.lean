import DatumSync.Jobs.Events

/-!
# What the steps of a stream do

Most steps, of the worker, of other sessions and of the delivery, leave what the stream has shown
and what it has still to get as they are.  The others are the worker's insert of a log row and the
steps of the generator.
-/

namespace DatumSync.Jobs

open Python Foundation

/-- The row that is inserted and not announced. -/
def WorkerPhase.unsent : WorkerPhase → List LogRow
  | logging row => [row]
  | _ => []

def WorkerPhase.isFinal : WorkerPhase → Bool
  | finishing => true
  | done => true
  | _ => false

/-- The history is read and the stream goes on. -/
def StreamPhase.isLive : StreamPhase → Bool
  | streaming => true
  | rereading _ => true
  | _ => false

/-- The log notifications the generator has still to get. -/
def StreamState.pending (s : StreamState) : List Body :=
  s.inbox.filter Body.isLog ++ s.worker.unsent.map LogRow.body

variable {s t : StreamState}

@[simp]
theorem LogRow.body_isLog (row : LogRow) : row.body.isLog = true := rfl

/-! ## Sending and delivering -/

@[simp]
theorem send_job (notice : Notice) : (s.send notice).job = s.job := by
  unfold StreamState.send
  split <;> rfl

@[simp]
theorem send_log (notice : Notice) : (s.send notice).log = s.log := by
  unfold StreamState.send
  split <;> rfl

@[simp]
theorem send_worker (notice : Notice) : (s.send notice).worker = s.worker := by
  unfold StreamState.send
  split <;> rfl

@[simp]
theorem send_phase (notice : Notice) : (s.send notice).phase = s.phase := by
  unfold StreamState.send
  split <;> rfl

@[simp]
theorem send_cursor (notice : Notice) : (s.send notice).cursor = s.cursor := by
  unfold StreamState.send
  split <;> rfl

@[simp]
theorem send_frames (notice : Notice) : (s.send notice).frames = s.frames := by
  unfold StreamState.send
  split <;> rfl

theorem inbox_send_idle (notice : Notice) (h : s.phase = .idle) :
    (s.send notice).inbox = s.inbox := by
  rw [StreamState.send, if_pos h]

theorem inbox_send_other {notice : Notice} (h : notice.jobId ≠ s.job.id) :
    (s.send notice).inbox = s.inbox := by
  unfold StreamState.send
  split
  · rfl
  · simp [StreamState.inbox, List.filter_append, h]

theorem inbox_notify (body : Body) (h : s.phase ≠ .idle) :
    (s.notify body).inbox = s.inbox ++ [body] := by
  rw [StreamState.notify, StreamState.send, if_neg h]
  simp [StreamState.inbox, List.filter_append]

/-- Delivery into a queue with room moves a notification and changes nothing else. -/
theorem onNotify_eq {notice : Notice} (hroom : s.queue.length < queueMax) :
    s.onNotify notice =
      { s with queue := s.queue ++ if notice.jobId = s.job.id then [notice.body] else [] } := by
  unfold StreamState.onNotify
  split
  · simp only [List.append_nil]
  · next h =>
    rw [if_neg (not_le_of_gt hroom), if_pos (not_not.mp h)]

theorem inbox_deliver {notice : Notice} {rest : List Notice} (hwire : s.wire = notice :: rest)
    (hroom : s.queue.length < queueMax) :
    ({ s with wire := rest }.onNotify notice).inbox = s.inbox := by
  rw [onNotify_eq (by exact hroom)]
  unfold StreamState.inbox
  dsimp only
  rw [hwire]
  by_cases h : notice.jobId = s.job.id
  · simp [h]
  · simp [h]

/-! ## Steps that leave the stream where it is -/

/-- The row is final exactly when the worker has finished with it. -/
def Agrees (s : StreamState) : Prop := s.job.status.isTerminal = s.worker.isFinal

/-- What most steps leave as it is. -/
structure Quiet (s t : StreamState) : Prop where
  ownRows : t.ownRows = s.ownRows
  nextId : s.log.nextId ≤ t.log.nextId
  unsent : t.worker.unsent = s.worker.unsent ∨ t.worker.unsent = []
  inbox : s.phase = .idle → t.inbox = s.inbox
  pending : s.phase ≠ .idle → t.pending = s.pending
  phase : t.phase = s.phase
  cursor : t.cursor = s.cursor
  shown : t.frames.filter Frame.isLog = s.frames.filter Frame.isLog
  emitted : s.frames ⊆ t.frames
  agrees : Agrees s → Agrees t
  final : Agrees s → s.job.status.isTerminal = true → t.job.status.isTerminal = true

theorem Quiet.trans {u : StreamState} (first : Quiet s t) (second : Quiet t u) : Quiet s u where
  ownRows := second.ownRows.trans first.ownRows
  nextId := first.nextId.trans second.nextId
  unsent := by
    rcases second.unsent with h | h
    · rw [h]
      exact first.unsent
    · exact .inr h
  inbox h := by
    have hmiddle : t.phase = .idle := first.phase.trans h
    calc
      u.inbox = t.inbox := second.inbox hmiddle
      _ = s.inbox := first.inbox h
  pending h := by
    have hmiddle : t.phase ≠ .idle := by
      rw [first.phase]
      exact h
    calc
      u.pending = t.pending := second.pending hmiddle
      _ = s.pending := first.pending h
  phase := second.phase.trans first.phase
  cursor := second.cursor.trans first.cursor
  shown := second.shown.trans first.shown
  emitted := List.Subset.trans first.emitted second.emitted
  agrees h := second.agrees (first.agrees h)
  final hi h := second.final (first.agrees hi) (first.final hi h)

/-- A change of the job's row and of the worker, with nothing to announce before or after. -/
theorem quiet_of_job {job : JobRow} {worker : WorkerPhase} (hid : job.id = s.job.id)
    (hbefore : s.worker.unsent = []) (hafter : worker.unsent = [])
    (hagrees : Agrees s → job.status.isTerminal = worker.isFinal)
    (hfinal : s.worker.isFinal = true → worker.isFinal = true) :
    Quiet s { s with job := job, worker := worker } := by
  have hinbox : StreamState.inbox { s with job := job, worker := worker } = s.inbox := by
    unfold StreamState.inbox
    dsimp only
    rw [hid]
  refine ⟨?_, le_rfl, .inr hafter, fun _ ↦ hinbox, fun _ ↦ ?_, rfl, rfl, rfl,
    List.Subset.refl _, hagrees, fun hi h ↦ ?_⟩
  · unfold StreamState.ownRows
    dsimp only
    rw [hid]
  · unfold StreamState.pending
    rw [hinbox, hbefore, hafter]
  · rw [hagrees hi]
    exact hfinal (hi.symm.trans h)

theorem quiet_send_other {notice : Notice} (h : notice.jobId ≠ s.job.id) :
    Quiet s (s.send notice) where
  ownRows := by simp only [StreamState.ownRows, send_log, send_job]
  nextId := by rw [send_log]
  unsent := .inl (by rw [send_worker])
  inbox := inbox_send_idle notice
  pending _ := by rw [StreamState.pending, inbox_send_other h, send_worker, StreamState.pending]
  phase := send_phase notice
  cursor := send_cursor notice
  shown := by rw [send_frames]
  emitted := by
    rw [send_frames]
    exact List.Subset.refl _
  agrees h := by
    unfold Agrees
    rw [send_job, send_worker]
    exact h
  final _ h := by rwa [send_job]

/-- Announcing a status or progress. -/
theorem quiet_notify {body : Body} (h : body.isLog = false) : Quiet s (s.notify body) where
  ownRows := by simp only [StreamState.notify, StreamState.ownRows, send_log, send_job]
  nextId := by rw [StreamState.notify, send_log]
  unsent := .inl (by rw [StreamState.notify, send_worker])
  inbox := inbox_send_idle _
  pending hphase := by
    rw [StreamState.pending, inbox_notify body hphase, StreamState.notify, send_worker,
      List.filter_append, List.filter_singleton, h, StreamState.pending]
    exact congrArg (· ++ _) (List.append_nil _)
  phase := send_phase _
  cursor := send_cursor _
  shown := by rw [StreamState.notify, send_frames]
  emitted := by
    rw [StreamState.notify, send_frames]
    exact List.Subset.refl _
  agrees h := by
    unfold Agrees at h ⊢
    rw [StreamState.notify, send_job, send_worker]
    exact h
  final _ h := by rwa [StreamState.notify, send_job]

/-- Announcing a log row that was inserted before. -/
theorem quiet_notifyLog {row : LogRow} (hworker : s.worker = .logging row) :
    Quiet s ({ s with worker := .running }.notify row.body) where
  ownRows := by simp only [StreamState.notify, StreamState.ownRows, send_log, send_job]
  nextId := by rw [StreamState.notify, send_log]
  unsent := .inr (by rw [StreamState.notify, send_worker]; rfl)
  inbox hphase := inbox_send_idle _ hphase
  pending hphase := by
    rw [StreamState.pending, inbox_notify row.body (by exact hphase), StreamState.notify,
      send_worker, StreamState.pending, hworker]
    simp [WorkerPhase.unsent, StreamState.inbox]
  phase := send_phase _
  cursor := send_cursor _
  shown := by rw [StreamState.notify, send_frames]
  emitted := by
    rw [StreamState.notify, send_frames]
    exact List.Subset.refl _
  agrees h := by
    unfold Agrees at h ⊢
    rw [StreamState.notify, send_job, send_worker]
    rw [hworker] at h
    exact h
  final _ h := by rwa [StreamState.notify, send_job]

theorem quiet_otherLog {jobId : Str} (ts level message : Str) (h : jobId ≠ s.job.id) :
    Quiet s { s with log := s.log.insert jobId ts level message } where
  ownRows := JobLog.rowsOf_insert_other _ _ _ _ h
  nextId := (Int.lt_succ _).le
  unsent := .inl rfl
  inbox _ := rfl
  pending _ := rfl
  phase := rfl
  cursor := rfl
  shown := rfl
  emitted := List.Subset.refl _
  agrees h := h
  final _ h := h

theorem quiet_deliver {notice : Notice} {rest : List Notice} (hwire : s.wire = notice :: rest)
    (hroom : s.queue.length < queueMax) : Quiet s ({ s with wire := rest }.onNotify notice) := by
  have hinbox := inbox_deliver hwire hroom
  have heq := @onNotify_eq { s with wire := rest } notice hroom
  have hpending : ({ s with wire := rest }.onNotify notice).pending = s.pending := by
    rw [StreamState.pending, hinbox, heq]
    rfl
  exact ⟨by rw [heq]; rfl, by rw [heq], .inl (by rw [heq]), fun _ ↦ hinbox, fun _ ↦ hpending,
    by rw [heq], by rw [heq], by rw [heq], by rw [heq]; exact List.Subset.refl _,
    fun h ↦ by rw [heq]; exact h, fun _ h ↦ by rwa [heq]⟩

/-- Frames that show no row, and what `submit` remembers. -/
theorem quiet_frames (announced : Bool) {frames : List Frame}
    (hframes : ∀ frame ∈ frames, frame.isLog = false) :
    Quiet s { s with announced := announced, frames := s.frames ++ frames } where
  ownRows := rfl
  nextId := le_rfl
  unsent := .inl rfl
  inbox _ := rfl
  pending _ := rfl
  phase := rfl
  cursor := rfl
  shown := by
    have hnone : frames.filter Frame.isLog = [] :=
      List.filter_eq_nil_iff.mpr fun frame h ↦ by simp [hframes frame h]
    rw [List.filter_append, hnone, List.append_nil]
  emitted := List.subset_append_left _ _
  agrees h := h
  final _ h := h

theorem quiet_announced : Quiet s { s with announced := true } := by
  have h := @quiet_frames s true [] nofun
  rw [List.append_nil] at h
  exact h

/-! ## The steps -/

/-- What a step does: most are quiet, the others are the worker's insert and the generator's. -/
inductive Moves (s : StreamState) : StreamAction → StreamState → Prop
  | quiet {action : StreamAction} {t : StreamState} (hother : action ≠ .reread) (h : Quiet s t) :
      Moves s action t
  | insertLog {ts level message : Str} (hworker : s.worker = .running) :
      Moves s (.insertLog ts level message) (s.insertLog ts level message)
  | listen (hphase : s.phase = .idle) : Moves s .listen { s with phase := .listening }
  | readStatus (hphase : s.phase = .listening) :
      Moves s .readStatus
        { s with phase := .opened s.job, frames := s.frames ++ [.status s.job] }
  | readHistory {row : JobRow} (hphase : s.phase = .opened row) :
      Moves s .readHistory (s.replay row)
  | consume {body : Body} {rest : List Body} (hphase : s.phase = .streaming)
      (hqueue : s.queue = body :: rest) : Moves s .consume ({ s with queue := rest }.handle body)
  | reread {notified : JobStatus} (hphase : s.phase = .rereading notified) :
      Moves s .reread
        { s with
          frames := s.frames ++ [.status s.job]
          phase := if s.job.status.isTerminal then .ended else .streaming }

theorem streamStep_moves {action : StreamAction} (hroom : HasRoom s action)
    (h : streamStep s action = some t) : Moves s action t := by
  unfold streamStep at h
  cases action with
  | claim startedAt =>
    obtain ⟨hworker, ht⟩ := Option.ite_none_right_eq_some.mp h
    obtain rfl := Option.some.inj ht
    have hclaimed : Quiet s { s with
        job := { s.job with status := .running, startedAt := some startedAt }
        worker := .running } := by
      refine quiet_of_job rfl (by rw [hworker]; rfl) rfl (fun _ ↦ rfl) fun hfinal ↦ ?_
      rw [hworker] at hfinal
      cases hfinal
    exact .quiet nofun (hclaimed.trans (quiet_notify rfl))
  | insertLog ts level message =>
    obtain ⟨hworker, ht⟩ := Option.ite_none_right_eq_some.mp h
    exact Option.some.inj ht ▸ .insertLog hworker
  | notifyLog =>
    dsimp only at h
    split at h
    · next row hworker => exact Option.some.inj h ▸ .quiet nofun (quiet_notifyLog hworker)
    · cases h
  | progress pct message =>
    obtain ⟨_, ht⟩ := Option.ite_none_right_eq_some.mp h
    exact Option.some.inj ht ▸ .quiet nofun (quiet_notify rfl)
  | updateFinal status artifacts error completedAt =>
    obtain ⟨⟨hworker, hstatus⟩, ht⟩ := Option.ite_none_right_eq_some.mp h
    exact Option.some.inj ht ▸ .quiet nofun (quiet_of_job rfl (by rw [hworker]; rfl) rfl
      (fun _ ↦ hstatus) fun _ ↦ rfl)
  | notifyFinal =>
    obtain ⟨hworker, ht⟩ := Option.ite_none_right_eq_some.mp h
    obtain rfl := Option.some.inj ht
    refine .quiet nofun (Quiet.trans (quiet_of_job rfl (by rw [hworker]; rfl) rfl (fun hi ↦ ?_)
      fun _ ↦ rfl) (quiet_notify rfl))
    unfold Agrees at hi
    rw [hi, hworker]
    rfl
  | cancelQueued completedAt =>
    obtain ⟨hworker, ht⟩ := Option.ite_none_right_eq_some.mp h
    exact Option.some.inj ht ▸ .quiet nofun (quiet_of_job rfl (by rw [hworker]; rfl) rfl
      (fun _ ↦ rfl) fun _ ↦ rfl)
  | notifyQueued =>
    obtain ⟨_, ht⟩ := Option.ite_none_left_eq_some.mp h
    exact Option.some.inj ht ▸ .quiet nofun (quiet_announced.trans (quiet_notify rfl))
  | otherLog jobId ts level message =>
    obtain ⟨hother, ht⟩ := Option.ite_none_right_eq_some.mp h
    exact Option.some.inj ht ▸ .quiet nofun (quiet_otherLog _ _ _ hother)
  | otherNotice notice =>
    obtain ⟨hother, ht⟩ := Option.ite_none_right_eq_some.mp h
    exact Option.some.inj ht ▸ .quiet nofun (quiet_send_other hother)
  | listen =>
    obtain ⟨hphase, ht⟩ := Option.ite_none_right_eq_some.mp h
    exact Option.some.inj ht ▸ .listen hphase
  | readStatus =>
    obtain ⟨hphase, ht⟩ := Option.ite_none_right_eq_some.mp h
    exact Option.some.inj ht ▸ .readStatus hphase
  | readHistory =>
    dsimp only at h
    split at h
    · next row hphase => exact Option.some.inj h ▸ .readHistory hphase
    · cases h
  | deliver =>
    dsimp only at h
    split at h
    · next notice rest hwire =>
      exact Option.some.inj h ▸ .quiet nofun (quiet_deliver hwire (hroom rfl))
    · cases h
  | consume =>
    dsimp only at h
    split at h
    · next body rest hphase hqueue => exact Option.some.inj h ▸ .consume hphase hqueue
    · cases h
  | reread =>
    dsimp only at h
    split at h
    · next notified hphase => exact Option.some.inj h ▸ .reread hphase
    · cases h
  | heartbeat =>
    obtain ⟨_, ht⟩ := Option.ite_none_right_eq_some.mp h
    exact Option.some.inj ht ▸ .quiet nofun (quiet_frames s.announced (by decide))

end DatumSync.Jobs
