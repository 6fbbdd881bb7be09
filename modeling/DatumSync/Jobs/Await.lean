import DatumSync.Jobs.Events

/-!
# Waiting for a job

`await_job` listens, reads the row and waits, while the job is claimed, requeued, finished or
cancelled by others.  A final `UPDATE` and its `NOTIFY` are two steps, and the second may never be
taken.  The wait may expire in the same pass of the event loop that sets the event.
-/

namespace DatumSync.Jobs

open Foundation Python

/-- What became of the `NOTIFY` of the final `UPDATE`. -/
inductive FinalNotice where
  /-- There was no final `UPDATE`. -/
  | unmade
  | due
  | sent
  /-- It raised, or the process died before it. -/
  | lost
  deriving DecidableEq

inductive AwaitPhase where
  | idle
  | listening
  | waiting
  /-- The event was set, the row is not read again. -/
  | woken
  | returned (row : JobRow)
  /-- `TIMEOUT` was raised; `status` is that of the row at that moment. -/
  | timedOut (status : JobStatus)
  deriving DecidableEq

/-- One job and one call of `await_job`. -/
structure AwaitState where
  job : JobRow
  announcement : FinalNotice := .unmade
  phase : AwaitPhase := .idle
  wire : List Notice := []
  /-- The event `done`. -/
  done : Bool := false

inductive AwaitAction where
  | claim (now : Str)
  | requeue
  | updateFinal (status : JobStatus) (artifacts : Json) (error : Option Str) (now : Str)
  | cancelQueued (now : Str)
  | notifyFinal
  | loseNotice
  | otherNotice (notice : Notice)
  | listen
  | readStatus
  | deliver
  | wake
  | reread
  | timeout
  deriving DecidableEq

/-- `body.get("status") in jobs.TERMINAL` -/
def Body.isFinal : Body → Bool
  | .status now _ => now.isTerminal
  | _ => false

namespace AwaitState

variable (s : AwaitState)

/-- `body.get("job_id") == wanted and body.get("status") in jobs.TERMINAL` -/
def isFinal (notice : Notice) : Bool := notice.jobId == s.job.id && notice.body.isFinal

/-- `pg_notify`: whoever does not listen never gets it. -/
def send (notice : Notice) : AwaitState :=
  if s.phase = .idle then s else { s with wire := s.wire ++ [notice] }

def onNotify (notice : Notice) : AwaitState := { s with done := s.done || s.isFinal notice }

end AwaitState

def awaitStep (s : AwaitState) : AwaitAction → Option AwaitState
  | .claim now =>
    if s.job.status = .queued then
      some { s with job := { s.job with status := .running, startedAt := some now } }
    else none
  | .requeue =>
    if s.job.status = .running then
      some { s with job := { s.job with status := .queued, startedAt := none } }
    else none
  | .updateFinal status artifacts error now =>
    if s.job.status = .running ∧ status.isTerminal = true then
      some { s with
        job := { s.job with
          status := status, artifacts := artifacts, error := error, completedAt := some now }
        announcement := .due }
    else none
  | .cancelQueued now =>
    if s.job.status = .queued then
      some { s with
        job := { s.job with status := .cancelled, completedAt := some now }
        announcement := .due }
    else none
  | .notifyFinal =>
    if s.announcement = .due then
      some ({ s with announcement := .sent }.send
        ⟨s.job.id, .status s.job.status s.job.error⟩)
    else none
  | .loseNotice => if s.announcement = .due then some { s with announcement := .lost } else none
  | .otherNotice notice => if s.isFinal notice = true then none else some (s.send notice)
  | .listen => if s.phase = .idle then some { s with phase := .listening } else none
  | .readStatus =>
    if s.phase = .listening then
      some { s with phase := if s.job.status.isTerminal then .returned s.job else .waiting }
    else none
  | .deliver =>
    match s.wire with
    | notice :: rest => some ({ s with wire := rest }.onNotify notice)
    | [] => none
  | .wake => if s.phase = .waiting ∧ s.done = true then some { s with phase := .woken } else none
  | .reread => if s.phase = .woken then some { s with phase := .returned s.job } else none
  | .timeout =>
    if s.phase = .waiting then some { s with phase := .timedOut s.job.status } else none

def awaitMachine : Machine AwaitState AwaitAction := ⟨awaitStep⟩

/-- A job in any status, and a call that is not made yet. -/
def awaitStart (job : JobRow) : AwaitState := { job := job }

/-- A returned row is final, and `TIMEOUT` is raised for a job that is not. -/
structure AwaitState.Sound (s : AwaitState) : Prop where
  returned : ∀ row, s.phase = .returned row → row.status.isTerminal = true
  timedOut : ∀ status, s.phase = .timedOut status → status.isTerminal = false

/-- The notification of a final `UPDATE` is not sent, lost, on its way, or has just been heard. -/
def AwaitState.Unheard (s : AwaitState) : Prop :=
  s.announcement = .due ∨ s.announcement = .lost ∨
    (∃ notice ∈ s.wire, s.isFinal notice = true) ∨ s.done = true

instance (s : AwaitState) : Decidable s.Unheard :=
  inferInstanceAs (Decidable (_ ∨ _ ∨ _ ∨ _))

/-- The wait does not expire while a final `UPDATE` is unheard of. -/
def AwaitState.Heard (s : AwaitState) (a : AwaitAction) : Prop := a = .timeout → ¬ s.Unheard

instance (s : AwaitState) (a : AwaitAction) : Decidable (s.Heard a) :=
  inferInstanceAs (Decidable (_ → _))

/-! ## The steps -/

inductive AwaitMoves (s : AwaitState) : AwaitAction → AwaitState → Prop
  | moved {a : AwaitAction} {job : JobRow} (hbefore : s.job.status.isTerminal = false)
      (hid : job.id = s.job.id) (hafter : job.status.isTerminal = false) :
      AwaitMoves s a { s with job := job }
  | finished {a : AwaitAction} {job : JobRow} (hterminal : job.status.isTerminal = true) :
      AwaitMoves s a { s with job := job, announcement := .due }
  | notifyFinal (hdue : s.announcement = .due) :
      AwaitMoves s .notifyFinal
        ({ s with announcement := .sent }.send ⟨s.job.id, .status s.job.status s.job.error⟩)
  | loseNotice (hdue : s.announcement = .due) :
      AwaitMoves s .loseNotice { s with announcement := .lost }
  | otherNotice {notice : Notice} (hother : s.isFinal notice ≠ true) :
      AwaitMoves s (.otherNotice notice) (s.send notice)
  | deliver {notice : Notice} {rest : List Notice} (hwire : s.wire = notice :: rest) :
      AwaitMoves s .deliver ({ s with wire := rest }.onNotify notice)
  | listen (hidle : s.phase = .idle) : AwaitMoves s .listen { s with phase := .listening }
  | returnFirst (hlistening : s.phase = .listening) (hterminal : s.job.status.isTerminal = true) :
      AwaitMoves s .readStatus { s with phase := .returned s.job }
  | wait (hlistening : s.phase = .listening) (hnot : s.job.status.isTerminal ≠ true) :
      AwaitMoves s .readStatus { s with phase := .waiting }
  | wake (hwaiting : s.phase = .waiting) (hdone : s.done = true) :
      AwaitMoves s .wake { s with phase := .woken }
  | returnAgain (hwoken : s.phase = .woken) :
      AwaitMoves s .reread { s with phase := .returned s.job }
  | timeout (hwaiting : s.phase = .waiting) :
      AwaitMoves s .timeout { s with phase := .timedOut s.job.status }

variable {s t : AwaitState} {a : AwaitAction}

theorem awaitMoves_of_step (hstep : awaitStep s a = some t) : AwaitMoves s a t := by
  cases a with
  | claim now =>
    rw [awaitStep] at hstep
    split_ifs at hstep with hqueued
    exact Option.some.inj hstep ▸ .moved (by rw [hqueued]; rfl) rfl rfl
  | requeue =>
    rw [awaitStep] at hstep
    split_ifs at hstep with hrunning
    exact Option.some.inj hstep ▸ .moved (by rw [hrunning]; rfl) rfl rfl
  | updateFinal status artifacts error now =>
    rw [awaitStep] at hstep
    split_ifs at hstep with henabled
    exact Option.some.inj hstep ▸ .finished henabled.2
  | cancelQueued now =>
    rw [awaitStep] at hstep
    split_ifs at hstep
    exact Option.some.inj hstep ▸ .finished rfl
  | notifyFinal =>
    rw [awaitStep] at hstep
    split_ifs at hstep with hdue
    exact Option.some.inj hstep ▸ .notifyFinal hdue
  | loseNotice =>
    rw [awaitStep] at hstep
    split_ifs at hstep with hdue
    exact Option.some.inj hstep ▸ .loseNotice hdue
  | otherNotice notice =>
    rw [awaitStep] at hstep
    split_ifs at hstep with hother
    exact Option.some.inj hstep ▸ .otherNotice hother
  | listen =>
    rw [awaitStep] at hstep
    split_ifs at hstep with hidle
    exact Option.some.inj hstep ▸ .listen hidle
  | readStatus =>
    rw [awaitStep] at hstep
    split_ifs at hstep with hlistening hterminal
    · exact Option.some.inj hstep ▸ .returnFirst hlistening hterminal
    · exact Option.some.inj hstep ▸ .wait hlistening hterminal
  | deliver =>
    rw [awaitStep] at hstep
    split at hstep
    · next hwire => exact Option.some.inj hstep ▸ .deliver hwire
    · cases hstep
  | wake =>
    rw [awaitStep] at hstep
    split_ifs at hstep with henabled
    exact Option.some.inj hstep ▸ .wake henabled.1 henabled.2
  | reread =>
    rw [awaitStep] at hstep
    split_ifs at hstep with hwoken
    exact Option.some.inj hstep ▸ .returnAgain hwoken
  | timeout =>
    rw [awaitStep] at hstep
    split_ifs at hstep with hwaiting
    exact Option.some.inj hstep ▸ .timeout hwaiting

/-! ## The invariant -/

/-- Listening before reading: a final row that a waiting call has not seen is unheard of. -/
structure AwaitState.Inv (s : AwaitState) : Prop where
  announced : s.announcement ≠ .unmade → s.job.status.isTerminal = true
  wired : ∀ notice ∈ s.wire, s.isFinal notice = true → s.job.status.isTerminal = true
  done : s.done = true → s.job.status.isTerminal = true
  waiting : s.phase = .waiting → s.job.status.isTerminal = true → s.Unheard
  woken : s.phase = .woken → s.job.status.isTerminal = true
  returned : ∀ row, s.phase = .returned row → row.status.isTerminal = true

theorem AwaitState.Inv.terminal_of_unheard (h : s.Inv) (hunheard : s.Unheard) :
    s.job.status.isTerminal = true := by
  rcases hunheard with hdue | hlost | ⟨notice, hmem, hfinal⟩ | hdone
  · exact h.announced (by simp [hdue])
  · exact h.announced (by simp [hlost])
  · exact h.wired notice hmem hfinal
  · exact h.done hdone

namespace AwaitState.Inv

/-- A job that is not final moves to another such status. -/
theorem moved (h : s.Inv) {job : JobRow} (hbefore : s.job.status.isTerminal = false)
    (hid : job.id = s.job.id) (hafter : job.status.isTerminal = false) :
    AwaitState.Inv { s with job := job } where
  announced hmade := by
    rw [h.announced hmade] at hbefore
    cases hbefore
  wired notice hmem hfinal := by
    unfold isFinal at hfinal
    rw [hid] at hfinal
    rw [h.wired notice hmem hfinal] at hbefore
    cases hbefore
  done hdone := by
    rw [h.done hdone] at hbefore
    cases hbefore
  waiting _ hterminal := by
    rw [show job.status.isTerminal = true from hterminal] at hafter
    cases hafter
  woken hwoken := by
    rw [h.woken hwoken] at hbefore
    cases hbefore
  returned := h.returned

/-- A final `UPDATE`, whose notification is due. -/
theorem finished (h : s.Inv) {job : JobRow} (hterminal : job.status.isTerminal = true) :
    AwaitState.Inv { s with job := job, announcement := .due } where
  announced _ := hterminal
  wired _ _ _ := hterminal
  done _ := hterminal
  waiting _ _ := .inl rfl
  woken _ := hterminal
  returned := h.returned

theorem setPhase (h : s.Inv) {phase : AwaitPhase}
    (hwaiting : phase = .waiting → s.job.status.isTerminal = true → s.Unheard)
    (hwoken : phase = .woken → s.job.status.isTerminal = true)
    (hreturned : ∀ row, phase = .returned row → row.status.isTerminal = true) :
    AwaitState.Inv { s with phase := phase } :=
  { h with
    waiting := hwaiting
    woken := hwoken
    returned := hreturned }

/-- Sending reaches a call that waits. -/
theorem send (h : s.Inv) {notice : Notice} {announcement : FinalNotice}
    (hmade : announcement ≠ .unmade → s.job.status.isTerminal = true)
    (hfinal : s.isFinal notice = true → s.job.status.isTerminal = true)
    (hheard : s.announcement = announcement ∨ s.isFinal notice = true) :
    ({ s with announcement := announcement }.send notice).Inv := by
  unfold AwaitState.send
  split
  · next hidle =>
    have hphase : s.phase = .idle := hidle
    exact { h with
      announced := hmade
      waiting := fun hwaiting ↦ by
        rw [show s.phase = .waiting from hwaiting] at hphase
        cases hphase }
  · refine { h with announced := hmade, wired := ?_, waiting := fun hwaiting hterminal ↦ ?_ }
    · intro other hother
      rcases List.mem_append.mp hother with hold | hnew
      · exact h.wired other hold
      · rw [List.mem_singleton.mp hnew]
        exact hfinal
    · rcases hheard with hsame | hnotice
      · rcases h.waiting hwaiting hterminal with hdue | hlost | ⟨other, hmem, hother⟩ | hdone
        · exact .inl (hsame.symm.trans hdue)
        · exact .inr (.inl (hsame.symm.trans hlost))
        · exact .inr (.inr (.inl ⟨other, List.mem_append_left _ hmem, hother⟩))
        · exact .inr (.inr (.inr hdone))
      · exact .inr (.inr (.inl ⟨notice, List.mem_append_right _ (List.mem_singleton_self _),
          hnotice⟩))

/-- A delivered notification sets the event if it is final. -/
theorem deliver (h : s.Inv) {notice : Notice} {rest : List Notice}
    (hwire : s.wire = notice :: rest) : ({ s with wire := rest }.onNotify notice).Inv := by
  have hrest : ∀ other ∈ rest, other ∈ s.wire := by
    intro other hother
    rw [hwire]
    exact List.mem_cons_of_mem _ hother
  refine { h with
    wired := fun other hother ↦ h.wired other (hrest other hother)
    done := fun hdone ↦ ?_
    waiting := fun hwaiting hterminal ↦ ?_ }
  · rcases (Bool.or_eq_true _ _).mp hdone with hold | hfinal
    · exact h.done hold
    · exact h.wired notice (hwire ▸ List.mem_cons_self) hfinal
  · rcases h.waiting hwaiting hterminal with hdue | hlost | ⟨other, hmem, hother⟩ | hdone
    · exact .inl hdue
    · exact .inr (.inl hlost)
    · rw [hwire] at hmem
      rcases List.mem_cons.mp hmem with hsame | hmem
      · exact .inr (.inr (.inr ((Bool.or_eq_true _ _).mpr (.inr (hsame ▸ hother)))))
      · exact .inr (.inr (.inl ⟨other, hmem, hother⟩))
    · exact .inr (.inr (.inr ((Bool.or_eq_true _ _).mpr (.inl hdone))))

/-- Every step keeps the invariant. -/
theorem step (h : s.Inv) (hmoves : AwaitMoves s a t) : t.Inv := by
  cases hmoves with
  | moved hbefore hid hafter => exact h.moved hbefore hid hafter
  | finished hterminal => exact h.finished hterminal
  | notifyFinal hdue =>
    have hterminal := h.announced (by simp [hdue])
    apply h.send (fun _ ↦ hterminal) (fun _ ↦ hterminal) (.inr _)
    rw [AwaitState.isFinal, beq_self_eq_true, Bool.true_and]
    exact hterminal
  | loseNotice hdue =>
    exact { h with
      announced := fun _ ↦ h.announced (by simp [hdue])
      waiting := fun _ _ ↦ .inr (.inl rfl) }
  | otherNotice hother => exact h.send h.announced (fun hfinal ↦ absurd hfinal hother) (.inl rfl)
  | deliver hwire => exact h.deliver hwire
  | listen hidle => exact h.setPhase nofun nofun nofun
  | returnFirst hlistening hterminal =>
    exact h.setPhase nofun nofun fun row hrow ↦ AwaitPhase.returned.inj hrow ▸ hterminal
  | wait hlistening hnot =>
    exact h.setPhase (fun _ hterminal ↦ absurd hterminal hnot) nofun nofun
  | wake hwaiting hdone => exact h.setPhase nofun (fun _ ↦ h.done hdone) nofun
  | returnAgain hwoken =>
    exact h.setPhase nofun nofun fun row hrow ↦ AwaitPhase.returned.inj hrow ▸ h.woken hwoken
  | timeout hwaiting => exact h.setPhase nofun nofun nofun

end AwaitState.Inv

theorem awaitStart_inv (job : JobRow) : (awaitStart job).Inv where
  announced hmade := absurd rfl hmade
  wired := nofun
  done := nofun
  waiting := nofun
  woken := nofun
  returned := nofun

@[simp]
theorem AwaitState.send_phase (notice : Notice) : (s.send notice).phase = s.phase := by
  unfold AwaitState.send
  split <;> rfl

/-- A call that has raised `TIMEOUT` is over. -/
theorem AwaitMoves.timedOut {status : JobStatus} (hmoves : AwaitMoves s a t)
    (h : s.phase = .timedOut status) : t.phase = .timedOut status := by
  cases hmoves with
  | moved hbefore hid hafter => exact h
  | finished hterminal => exact h
  | notifyFinal hdue => exact (AwaitState.send_phase _).trans h
  | loseNotice hdue => exact h
  | otherNotice hother => exact (AwaitState.send_phase _).trans h
  | deliver hwire => exact h
  | listen hidle => cases hidle.symm.trans h
  | returnFirst hlistening hterminal => cases hlistening.symm.trans h
  | wait hlistening hnot => cases hlistening.symm.trans h
  | wake hwaiting hdone => cases hwaiting.symm.trans h
  | returnAgain hwoken => cases hwoken.symm.trans h
  | timeout hwaiting => cases hwaiting.symm.trans h

theorem timedOut_run {status : JobStatus} {actions : List AwaitAction}
    (hrun : awaitMachine.run s actions = some t) (h : s.phase = .timedOut status) :
    t.phase = .timedOut status :=
  awaitMachine.invariant (I := fun u ↦ u.phase = .timedOut status)
    (fun _ _ _ hu hstep ↦ (awaitMoves_of_step hstep).timedOut hu) hrun h

/-- Only an expiring wait raises `TIMEOUT`. -/
theorem AwaitMoves.of_timedOut {status : JobStatus} (hmoves : AwaitMoves s a t)
    (h : t.phase = .timedOut status) :
    s.phase = .timedOut status ∨ a = .timeout ∧ s.phase = .waiting ∧ status = s.job.status := by
  cases hmoves with
  | moved hbefore hid hafter => exact .inl h
  | finished hterminal => exact .inl h
  | notifyFinal hdue =>
    rw [AwaitState.send_phase] at h
    exact .inl h
  | loseNotice hdue => exact .inl h
  | otherNotice hother =>
    rw [AwaitState.send_phase] at h
    exact .inl h
  | deliver hwire => exact .inl h
  | listen hidle => cases h
  | returnFirst hlistening hterminal => cases h
  | wait hlistening hnot => cases h
  | wake hwaiting hdone => cases h
  | returnAgain hwoken => cases h
  | timeout hwaiting => exact .inr ⟨rfl, hwaiting, (AwaitPhase.timedOut.inj h).symm⟩

/-- A step that hears of final updates in time keeps a call sound. -/
theorem sound_step (h : s.Inv ∧ s.Sound) (hheard : s.Heard a) (hmoves : AwaitMoves s a t) :
    t.Inv ∧ t.Sound := by
  obtain ⟨hinv, hsound⟩ := h
  have ht := hinv.step hmoves
  refine ⟨ht, ht.returned, fun status hstatus ↦ ?_⟩
  rcases hmoves.of_timedOut hstatus with hbefore | ⟨ha, hwaiting, rfl⟩
  · exact hsound.timedOut status hbefore
  · by_contra hterminal
    rw [Bool.not_eq_false] at hterminal
    exact hheard ha (hinv.waiting hwaiting hterminal)

/-- A call returns only final rows, and it raises `TIMEOUT` for an unfinished job exactly when its
wait does not expire while the notification of a final `UPDATE` is unsent, lost or on its way. -/
theorem awaitJob_sound_iff {job : JobRow} {actions : List AwaitAction} {s : AwaitState}
    (hrun : awaitMachine.run (awaitStart job) actions = some s) :
    (∀ row, s.phase = .returned row → row.status.isTerminal = true) ∧
      (s.Sound ↔ awaitMachine.Meets AwaitState.Heard (awaitStart job) actions) := by
  have hinv := awaitMachine.invariant (I := AwaitState.Inv)
    (fun _ _ _ h hstep ↦ h.step (awaitMoves_of_step hstep)) hrun (awaitStart_inv job)
  refine ⟨hinv.returned, ?_, fun hmeets ↦ ?_⟩
  · intro hsound
    by_contra hmeets
    obtain ⟨before, a, after, u, v, -, hbefore, -, hoff, hstep, hafter⟩ :=
      awaitMachine.exists_first_offence hrun hmeets
    have hu := awaitMachine.invariant (I := AwaitState.Inv)
      (fun _ _ _ h hstep ↦ h.step (awaitMoves_of_step hstep)) hbefore (awaitStart_inv job)
    unfold AwaitState.Heard at hoff
    rw [Classical.not_imp, not_not] at hoff
    obtain ⟨rfl, hunheard⟩ := hoff
    have hphase : v.phase = .timedOut u.job.status := by
      change awaitStep u .timeout = some v at hstep
      rw [awaitStep] at hstep
      split_ifs at hstep
      rw [← Option.some.inj hstep]
    have hfalse := hsound.timedOut _ (timedOut_run hafter hphase)
    rw [hu.terminal_of_unheard hunheard] at hfalse
    cases hfalse
  · exact (awaitMachine.invariant_run
      (fun _ _ _ h hC hstep ↦ sound_step h hC (awaitMoves_of_step hstep)) hmeets hrun
      ⟨awaitStart_inv job, nofun, nofun⟩).2

/-! ## A worker that dies before its notification -/

/-- The wait begins while the job runs; the `UPDATE` is made, and its `NOTIFY` is `announced`. -/
def finishedWhileWaiting (announced : List AwaitAction) : List AwaitAction :=
  [.claim (str "t0"), .listen, .readStatus, .updateFinal .complete (.arr []) none (str "t1")] ++
    announced

def queuedJob : JobRow where
  id := str "1"
  status := .queued

theorem awaitJob_sound_iff_announced :
    ∃ s, awaitMachine.run (awaitStart queuedJob)
        (finishedWhileWaiting [.notifyFinal, .deliver, .wake, .reread]) = some s ∧
      ((∀ row, s.phase = .returned row → row.status.isTerminal = true) ∧
        (s.Sound ↔ awaitMachine.Meets AwaitState.Heard (awaitStart queuedJob)
          (finishedWhileWaiting [.notifyFinal, .deliver, .wake, .reread]))) := by
  have hsome : (awaitMachine.run (awaitStart queuedJob)
      (finishedWhileWaiting [.notifyFinal, .deliver, .wake, .reread])).isSome = true := by decide
  obtain ⟨s, hs⟩ := Option.isSome_iff_exists.mp hsome
  exact ⟨s, hs, awaitJob_sound_iff hs⟩

/-- The row is complete and the caller is told that the job is still running. -/
theorem lostNotice_not_sound :
    ∃ s, awaitMachine.run (awaitStart queuedJob)
        (finishedWhileWaiting [.loseNotice, .timeout]) = some s ∧
      s.phase = .timedOut .complete ∧ ¬ s.Sound := by
  have hphase : (awaitMachine.run (awaitStart queuedJob)
      (finishedWhileWaiting [.loseNotice, .timeout])).map AwaitState.phase =
      some (.timedOut .complete) := by decide
  obtain ⟨s, hs, hs'⟩ := Option.map_eq_some_iff.mp hphase
  refine ⟨s, hs, hs', fun hsound ↦ ?_⟩
  cases hsound.timedOut _ hs'

end DatumSync.Jobs
