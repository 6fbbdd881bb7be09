import DatumSync.Worker.Execute
import DatumSync.Worker.Integrity

/-!
# Cancelling a job in execution

One claimed job in its worker, step by step: the awaits of `_execute`, the creation of the child,
the run, and the control notifications of `jobs.cancel` that are delivered in between.
`_on_control` finds the runner in `_active` or drops the notification; `Runner.cancel` sets the
flag and signals the child if its handle is there.

The event loop runs callbacks in the order they are scheduled, so a cancel that is delivered before
the child exits is run before `run` goes on after the exit.
-/

namespace DatumSync.Worker

open Foundation Python Jobs

inductive ExecPhase where
  | claimed
  | loaded (manifest : Manifest) (params : Json)
  /-- The runner is in `_active`, there is no child. -/
  | registered (args : RunnerArgs)
  /-- The child is there, `create_subprocess_exec` has not returned. -/
  | spawning (args : RunnerArgs)
  | running (args : RunnerArgs)
  /-- `run` has ended and the runner is out of `_active`. -/
  | returned (args : RunnerArgs)
  | ended

/-- `job_id in self._active` -/
def ExecPhase.isActive : ExecPhase → Bool
  | registered _ => true
  | spawning _ => true
  | running _ => true
  | _ => false

def RunAction.isOwn : RunAction → Bool
  | cancel => false
  | exit _ => false
  | _ => true

structure Execution where
  job : Job
  phase : ExecPhase := .claimed
  run : RunState
  /-- `_proc` is set. -/
  handle : Bool := false
  /-- Control notifications that are not delivered. -/
  wire : ℕ := 0
  /-- Tasks of `runner.cancel()` that have not begun, for notifications before the child's exit. -/
  pending : ℕ := 0
  /-- Those for notifications after it. -/
  late : ℕ := 0
  /-- `_signal_group` was called. -/
  signalled : Bool := false
  /-- A control notification was delivered before the child's exit. -/
  heard : Bool := false

inductive ExecAction where
  /-- `jobs.cancel` finds the row running and answers `signalled`. -/
  | signal
  | deliver
  | cancelTask
  | load
  | connect
  /-- `create_subprocess_exec` up to the fork. -/
  | spawn (fault : Option Exc)
  | handle
  | run (a : RunAction)
  /-- The run raises. -/
  | raise (e : Exc)
  | exit (code : ℤ)
  /-- `run` returns after a time limit. -/
  | leave
  | settle

variable (steps : Steps) (reprOf : Str → Str)

/-- The steps with a run that comes to `outcome`. -/
def Steps.withRun (steps : Steps) (outcome : Except Exc RunResult) : Steps :=
  { steps with run := fun _ ↦ outcome }

namespace Execution

variable (s : Execution)

/-- `_execute` comes to its end with this row. -/
def endWith (job : Job) : Execution := { s with job := job, phase := .ended }

def deliver : Execution :=
  let exited := s.run.exitCode.isSome
  { s with
    pending := if s.phase.isActive && !exited then s.pending + 1 else s.pending
    late := if s.phase.isActive && exited then s.late + 1 else s.late
    heard := s.heard || !exited }

/-- `Runner.cancel` up to its first await. -/
def cancelTask : Option Execution :=
  match s.pending, s.late with
  | pending + 1, _ => some { s with
      pending := pending
      run := { s.run with cancelled := true }
      signalled := s.signalled || s.handle }
  | 0, late + 1 => some { s with late := late, run := { s.run with cancelled := true } }
  | 0, 0 => none

/-- `_execute` up to the upload parameters. -/
def load : Option Execution :=
  match s.phase with
  | .claimed =>
    match steps.acquire with
    | .error _ => some (s.endWith s.job)
    | .ok () =>
      match steps.loadManifest s.job with
      | .error e =>
        some (s.endWith (if e.isA .jobError then (finishFailed steps e.message s.job).2 else s.job))
      | .ok manifest =>
        match steps.loadParams s.job manifest with
        | .error e => some (s.endWith
            (if e.isA .uploadError then (finishFailed steps e.message s.job).2 else s.job))
        | .ok params => some { s with phase := .loaded manifest params }
  | _ => none

/-- `connections.resolve`, and the runner in `_active`. -/
def connect : Option Execution :=
  match s.phase with
  | .loaded manifest params =>
    match steps.loadConnections s.job manifest with
    | .error e => some (s.endWith
        (if isConnectionFailure e then (finishFailed steps e.message s.job).2 else s.job))
    | .ok connections =>
      some { s with phase := .registered (steps.runnerArgs s.job manifest params connections) }
  | _ => none

def spawn (fault : Option Exc) : Option Execution :=
  match s.phase with
  | .registered args =>
    match fault with
    | none => some { s with phase := .spawning args }
    | some e => some { s with
        phase := .returned args
        run := { s.run with outcome := some (.error e) } }
  | _ => none

def setHandle : Option Execution :=
  match s.phase with
  | .spawning args => some { s with phase := .running args, handle := true }
  | _ => none

/-- A step of `run`; it goes on after the exit when the cancels before the exit have begun.  The
time limit signals the child and waits for its end. -/
def runOwn (a : RunAction) : Option Execution :=
  match s.phase with
  | .running args =>
    if a.isOwn = true ∧ (a = .answer → s.pending = 0) then
      (runStep ⟨args.manifest, reprOf, steps.depth⟩ s.run a).map fun run ↦ { s with
        run := run
        phase := if a = .answer then .returned args else s.phase
        signalled := if a = .timeout then true else s.signalled }
    else none
  | _ => none

def raise (e : Exc) : Option Execution :=
  match s.phase, s.run.outcome with
  | .running args, none => some { s with
      phase := .returned args
      run := { s.run with outcome := some (.error e) } }
  | _, _ => none

def isAlive : Bool :=
  match s.phase with
  | .spawning _ => s.run.exitCode.isNone
  | _ => s.handle && s.run.exitCode.isNone

def exit (code : ℤ) : Option Execution :=
  if s.isAlive then some { s with run := { s.run with exitCode := some code } } else none

def leave : Option Execution :=
  match s.phase, s.run.outcome with
  | .running args, some _ => some { s with phase := .returned args }
  | _, _ => none

/-- `_execute` after the run has returned or raised. -/
def settle : Option Execution :=
  match s.phase, s.run.outcome with
  | .returned args, some outcome =>
    some (s.endWith (runAndPublish (steps.withRun outcome) s.job args).2)
  | _, _ => none

end Execution

/-- One step of the worker, the child or a canceller. -/
def execStep (s : Execution) : ExecAction → Option Execution
  | .signal => if s.job.status = .running then some { s with wire := s.wire + 1 } else none
  | .deliver => if 0 < s.wire then some { s with wire := s.wire - 1 }.deliver else none
  | .cancelTask => s.cancelTask
  | .load => s.load steps
  | .connect => s.connect steps
  | .spawn fault => s.spawn fault
  | .handle => s.setHandle
  | .run a => s.runOwn steps reprOf a
  | .raise e => s.raise e
  | .exit code => s.exit code
  | .leave => s.leave
  | .settle => s.settle steps

def execMachine : Machine Execution ExecAction := ⟨execStep steps reprOf⟩

/-- A job that was just claimed; the child will write these bytes. -/
def Execution.start (job : Job) (stdout stderr : List UInt8) : Execution where
  job := job
  run := runStart stdout stderr

/-- A cancel that was delivered in time takes effect: the job is not complete, and once the child's
handle is there and the cancel has been run, the child has been signalled. -/
def Execution.Honoured (s : Execution) : Prop :=
  s.heard = true → s.job.status ≠ .complete ∧
    (s.handle = true → s.pending = 0 → s.signalled = true)

/-- The handle is not set after a cancel that found no child to signal, and no notification arrives
for a child that the run has left behind. -/
def Execution.Timely (s : Execution) : ExecAction → Prop
  | .handle => s.heard = true → 0 < s.pending
  | .deliver => s.handle = true → s.phase.isActive = false → s.run.exitCode = none →
      0 < s.pending ∨ s.signalled = true
  | _ => True

instance (s : Execution) : (a : ExecAction) → Decidable (s.Timely a)
  | .handle => inferInstanceAs (Decidable (_ → _))
  | .deliver => inferInstanceAs (Decidable (_ → _ → _ → _))
  | .signal | .cancelTask | .load | .connect | .spawn _ | .run _ | .raise _ | .exit _ | .leave
  | .settle => isTrue trivial

/-! ## The outcome of a run and the row -/

variable {steps reprOf}

theorem runStep_own {config : RunConfig} {r r' : RunState} {a : RunAction} (ha : a.isOwn = true)
    (h : runStep config r a = some r') : r'.cancelled = r.cancelled ∧ r'.exitCode = r.exitCode := by
  unfold runStep at h
  split at h
  · cases h
  · cases a with
    | cancel => cases ha
    | exit code => cases ha
    | readEvent fault =>
      obtain ⟨-, _, _, -, ⟨-, rfl⟩ | ⟨-, ⟨_, -, rfl⟩ | ⟨-, rfl⟩⟩⟩ := readEvent_cases h
      · exact ⟨rfl, rfl⟩
      · exact ⟨rfl, rfl⟩
      · exact ⟨rfl, rfl⟩
    | readStderr fault =>
      obtain rfl | ⟨_, rfl⟩ := readStderr_cases h
      · exact ⟨rfl, rfl⟩
      · exact ⟨rfl, rfl⟩
    | eventsEnd =>
      dsimp only at h
      split at h
      · exact Option.some.inj h ▸ ⟨rfl, rfl⟩
      · cases h
    | stderrEnd =>
      dsimp only at h
      split at h
      · exact Option.some.inj h ▸ ⟨rfl, rfl⟩
      · cases h
    | timeout =>
      dsimp only at h
      split at h
      · exact Option.some.inj h ▸ ⟨rfl, rfl⟩
      · cases h
    | answer =>
      dsimp only at h
      split at h
      · split at h
        · exact Option.some.inj h ▸ ⟨rfl, rfl⟩
        · cases h
      · cases h

theorem finish_complete {f : Finish} {job : Job} (hnot : job.status ≠ .complete)
    (h : (finish steps f job).2.status = .complete) : f.status = .complete := by
  unfold finish at h
  split at h
  · exact absurd h hnot
  · cases hstatus : f.status with
    | complete => rfl
    | failed =>
      rw [Job.finished, hstatus] at h
      cases h
    | cancelled =>
      rw [Job.finished, hstatus] at h
      cases h

theorem finishFailed_not_complete {message : Str} {job : Job} (hnot : job.status ≠ .complete) :
    (finishFailed steps message job).2.status ≠ .complete :=
  fun h ↦ by cases finish_complete hnot h

/-- A step that raises fails the job or leaves it. -/
theorem ite_finishFailed_not_complete {failed : Bool} {message : Str} {job : Job}
    (hnot : job.status ≠ .complete) :
    (if failed then (finishFailed steps message job).2 else job).status ≠ .complete := by
  cases failed with
  | true => exact finishFailed_not_complete hnot
  | false => exact hnot

/-- A job is complete only after a run with a complete result. -/
theorem runAndPublish_complete {job : Job} {args : RunnerArgs} (hnot : job.status ≠ .complete)
    (h : (runAndPublish steps job args).2.status = .complete) :
    ∃ result, steps.run args = .ok result ∧ result.status = .complete := by
  unfold runAndPublish at h
  split at h
  · exact absurd h (finishFailed_not_complete hnot)
  · next result hrun =>
    refine ⟨result, hrun, ?_⟩
    unfold publish at h
    dsimp only at h
    split at h
    · next hcomplete => exact hcomplete
    · exact finish_complete hnot h

/-! ## The invariant -/

/-- The phases before the child's handle is set. -/
def ExecPhase.isEarly : ExecPhase → Bool
  | claimed => true
  | loaded _ _ => true
  | registered _ => true
  | spawning _ => true
  | _ => false

namespace Execution

structure Inv (s : Execution) : Prop where
  early : s.phase.isEarly = true → s.handle = false
  handled : ∀ args, s.phase = .running args → s.handle = true
  unsignalled : s.handle = false → s.signalled = false
  answered : s.heard = true → s.handle = true → 0 < s.pending ∨ s.signalled = true
  flagged : ∀ args, s.phase = .running args → s.run.outcome = none → s.heard = true →
    s.run.cancelled = true ∨ 0 < s.pending
  complete : ∀ result, s.run.outcome = some (.ok result) → result.status = .complete →
    s.heard = false ∧ s.run.exitCode.isSome = true
  row : s.job.status = .complete →
    ∃ result, s.run.outcome = some (.ok result) ∧ result.status = .complete
  unfinished : s.phase ≠ .ended → s.job.status ≠ .complete

variable {s t : Execution}

theorem Inv.honoured (h : s.Inv) : s.Honoured := by
  refine fun hheard ↦ ⟨fun hrow ↦ ?_, fun hhandle hpending ↦ ?_⟩
  · obtain ⟨result, houtcome, hcomplete⟩ := h.row hrow
    rw [(h.complete result houtcome hcomplete).1] at hheard
    cases hheard
  · rcases h.answered hheard hhandle with hpos | hsignalled
    · rw [hpending] at hpos
      exact absurd hpos (lt_irrefl 0)
    · exact hsignalled

theorem start_inv {job : Job} (hjob : job.status ≠ .complete) (stdout stderr : List UInt8) :
    (start job stdout stderr).Inv where
  early _ := rfl
  handled := nofun
  unsignalled _ := rfl
  answered := nofun
  flagged := nofun
  complete := nofun
  row hrow := absurd hrow hjob
  unfinished _ := hjob

/-- An execution that ends before its run. -/
theorem Inv.endWith (h : s.Inv) {job : Job} (hjob : job.status ≠ .complete) : (s.endWith job).Inv :=
  { h with
    early := nofun
    handled := nofun
    flagged := nofun
    row := fun hrow ↦ absurd hrow hjob
    unfinished := fun hphase ↦ absurd rfl hphase }

/-- A step from one early phase to another. -/
theorem Inv.setEarly (h : s.Inv) {phase : ExecPhase} (hbefore : s.phase.isEarly = true)
    (hrunning : ∀ args, phase ≠ .running args) : Inv { s with phase := phase } :=
  { h with
    early := fun _ ↦ h.early hbefore
    handled := fun args hphase ↦ absurd hphase (hrunning args)
    flagged := fun args hphase ↦ absurd hphase (hrunning args)
    unfinished := fun _ ↦ h.unfinished fun hended ↦ by
      rw [hended] at hbefore
      cases hbefore }

theorem Inv.deliver (h : s.Inv) (htimely : s.Timely .deliver) : s.deliver.Inv := by
  cases hexit : s.run.exitCode with
  | some code =>
    have hsame : s.deliver =
        { s with late := if s.phase.isActive then s.late + 1 else s.late } := by
      rw [Execution.deliver, hexit]
      simp
    rw [hsame]
    exact { h with }
  | none =>
    have hsame : s.deliver = { s with
        pending := if s.phase.isActive then s.pending + 1 else s.pending
        heard := true } := by
      rw [Execution.deliver, hexit]
      simp
    rw [hsame]
    refine { h with answered := fun _ hhandle ↦ ?_, flagged := ?_, complete := ?_ }
    · cases hactive : s.phase.isActive with
      | true => exact .inl (by simp)
      | false =>
        rcases htimely hhandle hactive hexit with hpending | hsignalled
        · exact .inl (by simpa [hactive] using hpending)
        · exact .inr hsignalled
    · intro args hphase _ _
      have hactive : s.phase.isActive = true := by
        rw [show s.phase = .running args from hphase]
        rfl
      exact .inr (by simp [hactive])
    · intro result houtcome hcomplete
      have hsome := (h.complete result houtcome hcomplete).2
      rw [hexit] at hsome
      cases hsome

theorem Inv.cancelTask (h : s.Inv) (hstep : s.cancelTask = some t) : t.Inv := by
  unfold Execution.cancelTask at hstep
  split at hstep
  · next pending _ hpending =>
    refine Option.some.inj hstep ▸
      { h with
        unsignalled := fun hhandle ↦ ?_
        answered := fun _ hhandle ↦ .inr ?_
        flagged := fun _ _ _ _ ↦ .inl rfl }
    · change (s.signalled || s.handle) = false
      rw [h.unsignalled hhandle, show s.handle = false from hhandle]
      rfl
    · change (s.signalled || s.handle) = true
      rw [show s.handle = true from hhandle, Bool.or_true]
  · exact Option.some.inj hstep ▸ { h with flagged := fun _ _ _ _ ↦ .inl rfl }
  · cases hstep

theorem Inv.load (h : s.Inv) (hstep : s.load steps = some t) : t.Inv := by
  unfold Execution.load at hstep
  split at hstep
  · next hphase =>
    have hnot : s.job.status ≠ .complete := h.unfinished (by simp [hphase])
    split at hstep
    · exact Option.some.inj hstep ▸ h.endWith hnot
    · split at hstep
      · exact Option.some.inj hstep ▸ h.endWith (ite_finishFailed_not_complete hnot)
      · split at hstep
        · exact Option.some.inj hstep ▸ h.endWith (ite_finishFailed_not_complete hnot)
        · exact Option.some.inj hstep ▸ h.setEarly (by rw [hphase]; rfl) nofun
  · cases hstep

theorem Inv.connect (h : s.Inv) (hstep : s.connect steps = some t) : t.Inv := by
  unfold Execution.connect at hstep
  split at hstep
  · next hphase =>
    have hnot : s.job.status ≠ .complete := h.unfinished (by simp [hphase])
    split at hstep
    · exact Option.some.inj hstep ▸ h.endWith (ite_finishFailed_not_complete hnot)
    · exact Option.some.inj hstep ▸ h.setEarly (by rw [hphase]; rfl) nofun
  · cases hstep

/-- A run that ends without a complete result. -/
theorem Inv.returned (h : s.Inv) {args : RunnerArgs} {outcome : Except Exc RunResult}
    (hphase : s.phase ≠ .ended)
    (houtcome : ∀ result, outcome = .ok result → result.status ≠ .complete) :
    Inv { s with
      phase := .returned args
      run := { s.run with outcome := some outcome } } :=
  { h with
    early := nofun
    handled := nofun
    flagged := nofun
    complete := fun result hresult hcomplete ↦
      absurd hcomplete (houtcome result (Option.some.inj hresult))
    row := fun hrow ↦ absurd hrow (h.unfinished hphase)
    unfinished := fun _ ↦ h.unfinished hphase }

theorem Inv.spawn (h : s.Inv) {fault : Option Exc} (hstep : s.spawn fault = some t) : t.Inv := by
  unfold Execution.spawn at hstep
  split at hstep
  · next hphase =>
    split at hstep
    · exact Option.some.inj hstep ▸ h.setEarly (by rw [hphase]; rfl) nofun
    · exact Option.some.inj hstep ▸ h.returned (by simp [hphase]) nofun
  · cases hstep

theorem Inv.setHandle (h : s.Inv) (htimely : s.Timely .handle) (hstep : s.setHandle = some t) :
    t.Inv := by
  unfold Execution.setHandle at hstep
  split at hstep
  · next hphase =>
    exact Option.some.inj hstep ▸
      { h with
        early := nofun
        handled := fun _ _ ↦ rfl
        unsignalled := nofun
        answered := fun hheard _ ↦ .inl (htimely hheard)
        flagged := fun _ _ _ hheard ↦ .inr (htimely hheard)
        unfinished := fun _ ↦ h.unfinished (by simp [hphase]) }
  · cases hstep

/-- A complete answer is given only when no cancel was heard before the exit. -/
theorem Inv.runOwn (h : s.Inv) {a : RunAction} (hstep : s.runOwn steps reprOf a = some t) :
    t.Inv := by
  unfold Execution.runOwn at hstep
  split at hstep
  · next args hphase =>
    split at hstep
    · next hown =>
      obtain ⟨run, hrun, rfl⟩ := Option.map_eq_some_iff.mp hstep
      have hnone := outcome_none_of_step hrun
      obtain ⟨hcancelled, hexit⟩ := runStep_own hown.1 hrun
      have hhandle := h.handled args hphase
      have hnot := h.unfinished (by simp [hphase])
      refine
        { early := fun hearly ↦ ?_
          handled := fun _ _ ↦ hhandle
          unsignalled := fun hfalse ↦ ?_
          answered := fun hheard _ ↦ ?_
          flagged := fun _ _ _ hheard ↦ ?_
          complete := fun result houtcome hcomplete ↦ ?_
          row := fun hrow ↦ absurd hrow hnot
          unfinished := fun _ ↦ hnot }
      · change (if a = .answer then ExecPhase.returned args else s.phase).isEarly = true at hearly
        rw [hphase] at hearly
        split at hearly <;> cases hearly
      · rw [show s.handle = false from hfalse] at hhandle
        cases hhandle
      · change 0 < s.pending ∨ (if a = .timeout then true else s.signalled) = true
        rcases h.answered hheard hhandle with hpending | hsignalled
        · exact .inl hpending
        · apply Or.inr
          split
          · rfl
          · exact hsignalled
      · change run.cancelled = true ∨ 0 < s.pending
        rw [hcancelled]
        exact h.flagged args hphase hnone hheard
      · obtain ⟨rfl, hexited, hcancelled, -⟩ := runStep_complete hrun hnone houtcome hcomplete
        refine ⟨?_, ?_⟩
        · by_contra hheard
          rw [Bool.not_eq_false] at hheard
          rcases h.flagged args hphase hnone hheard with hflag | hpending
          · rw [hcancelled] at hflag
            cases hflag
          · rw [hown.2 rfl] at hpending
            exact absurd hpending (lt_irrefl 0)
        · change run.exitCode.isSome = true
          rw [hexit, hexited]
          rfl
    · cases hstep
  · cases hstep

theorem Inv.raise (h : s.Inv) {e : Exc} (hstep : s.raise e = some t) : t.Inv := by
  unfold Execution.raise at hstep
  split at hstep
  · next hphase _ => exact Option.some.inj hstep ▸ h.returned (by simp [hphase]) nofun
  · cases hstep

theorem Inv.exit (h : s.Inv) {code : ℤ} (hstep : s.exit code = some t) : t.Inv := by
  unfold Execution.exit at hstep
  split at hstep
  · exact Option.some.inj hstep ▸
      { h with
        complete := fun result houtcome hcomplete ↦
          ⟨(h.complete result houtcome hcomplete).1, rfl⟩ }
  · cases hstep

theorem Inv.leave (h : s.Inv) (hstep : s.leave = some t) : t.Inv := by
  unfold Execution.leave at hstep
  split at hstep
  · next hphase _ =>
    exact Option.some.inj hstep ▸
      { h with
        early := nofun
        handled := nofun
        flagged := nofun
        unfinished := fun _ ↦ h.unfinished (by simp [hphase]) }
  · cases hstep

theorem Inv.settle (h : s.Inv) (hstep : s.settle steps = some t) : t.Inv := by
  unfold Execution.settle at hstep
  split at hstep
  · next args outcome hphase houtcome =>
    refine Option.some.inj hstep ▸
      { h with
        early := nofun
        handled := nofun
        flagged := nofun
        row := fun hrow ↦ ?_
        unfinished := fun hended ↦ absurd rfl hended }
    obtain ⟨result, hrun, hcomplete⟩ :=
      runAndPublish_complete (h.unfinished (by simp [hphase])) hrow
    exact ⟨result, houtcome.trans (congrArg some hrun), hcomplete⟩
  · cases hstep

/-- Every timely step keeps the invariant. -/
theorem Inv.step (h : s.Inv) {a : ExecAction} (htimely : s.Timely a)
    (hstep : execStep steps reprOf s a = some t) : t.Inv := by
  cases a with
  | signal =>
    rw [execStep] at hstep
    split at hstep
    · exact Option.some.inj hstep ▸ { h with }
    · cases hstep
  | deliver =>
    rw [execStep] at hstep
    split at hstep
    · have hwire : Inv { s with wire := s.wire - 1 } := { h with }
      exact Option.some.inj hstep ▸ hwire.deliver htimely
    · cases hstep
  | cancelTask => exact h.cancelTask hstep
  | load => exact h.load hstep
  | connect => exact h.connect hstep
  | spawn fault => exact h.spawn hstep
  | handle => exact h.setHandle htimely hstep
  | run a => exact h.runOwn hstep
  | raise e => exact h.raise hstep
  | exit code => exact h.exit hstep
  | leave => exact h.leave hstep
  | settle => exact h.settle hstep

/-- A step that is not timely loses a cancel. -/
theorem Inv.not_honoured (h : s.Inv) {a : ExecAction} (htimely : ¬ s.Timely a)
    (hstep : execStep steps reprOf s a = some t) : ¬ t.Honoured := by
  cases a with
  | handle =>
    rw [Timely, Classical.not_imp, not_lt, Nat.le_zero] at htimely
    obtain ⟨hheard, hpending⟩ := htimely
    rw [execStep, Execution.setHandle] at hstep
    split at hstep
    · next hphase =>
      have hsilent := h.unsignalled (h.early (by rw [hphase]; rfl))
      obtain rfl := Option.some.inj hstep
      intro hhonoured
      have hsignalled := (hhonoured hheard).2 rfl hpending
      rw [show s.signalled = true from hsignalled] at hsilent
      cases hsilent
    · cases hstep
  | deliver =>
    simp only [Timely, Classical.not_imp, not_or, not_lt, Nat.le_zero] at htimely
    obtain ⟨hhandle, hactive, hexit, hpending, hsilent⟩ := htimely
    rw [execStep] at hstep
    split at hstep
    · obtain rfl := Option.some.inj hstep
      intro hhonoured
      refine hsilent ((hhonoured ?_).2 hhandle ?_)
      · simp [Execution.deliver, hexit]
      · simp [Execution.deliver, hactive, hpending]
    · cases hstep
  | _ => exact absurd trivial htimely

end Execution

/-- In every interleaving of an execution with the delivery of cancels, each cancel delivered before
the child's exit takes effect exactly when the handle is not set after a cancel that found no child,
and no notification arrives for a child that the run has left behind. -/
theorem cancel_honoured_iff {job : Job} (hjob : job.status = .running) {stdout stderr : List UInt8}
    {actions : List ExecAction} {s : Execution}
    (hrun : (execMachine steps reprOf).run (Execution.start job stdout stderr) actions = some s) :
    (execMachine steps reprOf).Always Execution.Honoured (Execution.start job stdout stderr)
        actions ↔
      (execMachine steps reprOf).Meets Execution.Timely (Execution.start job stdout stderr)
        actions :=
  (execMachine steps reprOf).always_iff_meets (fun _ h ↦ h.honoured)
    (fun _ _ _ h htimely hstep ↦ h.step htimely hstep)
    (fun _ _ _ h htimely hstep ↦ h.not_honoured htimely hstep) hrun
    (Execution.start_inv (by simp [hjob]) stdout stderr)

/-! ## The sequential execution -/

/-- What the steps so far have come to, as `execute` has it. -/
def ExecPhase.Follows (steps : Steps) (job row : Job) : ExecPhase → Prop
  | claimed => row = job
  | loaded manifest params => row = job ∧ steps.acquire = .ok () ∧
      steps.loadManifest job = .ok manifest ∧ steps.loadParams job manifest = .ok params
  | registered args => row = job ∧ Ready steps job args
  | spawning args => row = job ∧ Ready steps job args
  | running args => row = job ∧ Ready steps job args
  | returned args => row = job ∧ Ready steps job args
  | ended => ∃ outcome, row = (execute (steps.withRun outcome) job).2

namespace Execution

variable {s t : Execution} {job : Job}

theorem follows_load (h : s.phase.Follows steps job s.job) (hstep : s.load steps = some t) :
    t.phase.Follows steps job t.job := by
  unfold Execution.load at hstep
  split at hstep
  · next hphase =>
    rw [hphase, ExecPhase.Follows] at h
    rw [h] at hstep
    have outcome : Except Exc RunResult := .ok { status := .failed }
    split at hstep
    · next e hacquire =>
      exact Option.some.inj hstep ▸
        ⟨outcome, (@execute_of_uncaught (steps.withRun outcome) job (.acquire hacquire)).symm⟩
    · next hacquire =>
      split at hstep
      · next e hmanifest =>
        refine Option.some.inj hstep ▸ ⟨outcome, ?_⟩
        cases hclass : e.isA .jobError with
        | true =>
          exact (congrArg Prod.snd (@execute_of_exit (steps.withRun outcome) job _
            (.noManifest hacquire hmanifest hclass))).symm
        | false =>
          exact (@execute_of_uncaught (steps.withRun outcome) job
            (.manifest hacquire hmanifest hclass)).symm
      · next manifest hmanifest =>
        split at hstep
        · next e hparams =>
          refine Option.some.inj hstep ▸ ⟨outcome, ?_⟩
          cases hclass : e.isA .uploadError with
          | true =>
            exact (congrArg Prod.snd (@execute_of_exit (steps.withRun outcome) job _
              (.noParams hacquire hmanifest hparams hclass))).symm
          | false =>
            exact (@execute_of_uncaught (steps.withRun outcome) job
              (.params hacquire hmanifest hparams hclass)).symm
        · next params hparams =>
          exact Option.some.inj hstep ▸ ⟨rfl, hacquire, hmanifest, hparams⟩
  · cases hstep

theorem follows_connect (h : s.phase.Follows steps job s.job) (hstep : s.connect steps = some t) :
    t.phase.Follows steps job t.job := by
  unfold Execution.connect at hstep
  split at hstep
  · next manifest params hphase =>
    rw [hphase, ExecPhase.Follows] at h
    obtain ⟨hrow, hacquire, hmanifest, hparams⟩ := h
    rw [hrow] at hstep
    have outcome : Except Exc RunResult := .ok { status := .failed }
    split at hstep
    · next e hconnections =>
      refine Option.some.inj hstep ▸ ⟨outcome, ?_⟩
      cases hclass : isConnectionFailure e with
      | true =>
        exact (congrArg Prod.snd (@execute_of_exit (steps.withRun outcome) job _
          (.noConnections hacquire hmanifest hparams hconnections hclass))).symm
      | false =>
        exact (@execute_of_uncaught (steps.withRun outcome) job
          (.connections hacquire hmanifest hparams hconnections hclass)).symm
    · next connections hconnections =>
      have hready := Ready.intro hacquire hmanifest hparams hconnections
      exact Option.some.inj hstep ▸ ⟨rfl, hready⟩
  · cases hstep

theorem follows_settle (h : s.phase.Follows steps job s.job) (hstep : s.settle steps = some t) :
    t.phase.Follows steps job t.job := by
  unfold Execution.settle at hstep
  split at hstep
  · next args outcome hphase houtcome =>
    rw [hphase, ExecPhase.Follows] at h
    obtain ⟨hrow, hready⟩ := h
    refine Option.some.inj hstep ▸ ⟨outcome, ?_⟩
    have hready' : Ready (steps.withRun outcome) job args := by
      cases hready with
      | intro hacquire hmanifest hparams hconnections =>
        exact .intro hacquire hmanifest hparams hconnections
    rw [execute_of_ready hready', ← hrow]
    rfl
  · cases hstep

theorem follows_spawn (h : s.phase.Follows steps job s.job) {fault : Option Exc}
    (hstep : s.spawn fault = some t) : t.phase.Follows steps job t.job := by
  unfold Execution.spawn at hstep
  split at hstep
  · next hphase =>
    rw [hphase] at h
    split at hstep <;> exact Option.some.inj hstep ▸ h
  · cases hstep

theorem follows_runOwn (h : s.phase.Follows steps job s.job) {a : RunAction}
    (hstep : s.runOwn steps reprOf a = some t) : t.phase.Follows steps job t.job := by
  unfold Execution.runOwn at hstep
  split at hstep
  · next args hphase =>
    split at hstep
    · obtain ⟨run, -, rfl⟩ := Option.map_eq_some_iff.mp hstep
      change (if a = .answer then ExecPhase.returned args else s.phase).Follows steps job s.job
      rw [hphase] at h ⊢
      split <;> exact h
    · cases hstep
  · cases hstep

/-- Every step follows the sequential execution. -/
theorem follows_step (h : s.phase.Follows steps job s.job) {a : ExecAction}
    (hstep : execStep steps reprOf s a = some t) : t.phase.Follows steps job t.job := by
  cases a with
  | signal =>
    rw [execStep] at hstep
    split at hstep
    · exact Option.some.inj hstep ▸ h
    · cases hstep
  | deliver =>
    rw [execStep] at hstep
    split at hstep
    · exact Option.some.inj hstep ▸ h
    · cases hstep
  | cancelTask =>
    rw [execStep, Execution.cancelTask] at hstep
    split at hstep
    · exact Option.some.inj hstep ▸ h
    · exact Option.some.inj hstep ▸ h
    · cases hstep
  | load => exact follows_load h hstep
  | connect => exact follows_connect h hstep
  | spawn fault => exact follows_spawn h hstep
  | handle =>
    rw [execStep, Execution.setHandle] at hstep
    split at hstep
    · next hphase =>
      rw [hphase] at h
      exact Option.some.inj hstep ▸ h
    · cases hstep
  | run a => exact follows_runOwn h hstep
  | raise e =>
    rw [execStep, Execution.raise] at hstep
    split at hstep
    · next hphase _ =>
      rw [hphase] at h
      exact Option.some.inj hstep ▸ h
    · cases hstep
  | exit code =>
    rw [execStep, Execution.exit] at hstep
    split at hstep
    · exact Option.some.inj hstep ▸ h
    · cases hstep
  | leave =>
    rw [execStep, Execution.leave] at hstep
    split at hstep
    · next hphase _ =>
      rw [hphase] at h
      exact Option.some.inj hstep ▸ h
    · cases hstep
  | settle => exact follows_settle h hstep

end Execution

/-- However cancels are delivered, an execution that has ended leaves a row that the sequential
execution leaves for some outcome of its run. -/
theorem execution_row {job : Job} {stdout stderr : List UInt8} {actions : List ExecAction}
    {s : Execution}
    (hrun : (execMachine steps reprOf).run (Execution.start job stdout stderr) actions = some s)
    (hended : s.phase = .ended) :
    ∃ outcome, s.job = (execute (steps.withRun outcome) job).2 := by
  have hfollows : s.phase.Follows steps job s.job :=
    (execMachine steps reprOf).invariant (I := fun u ↦ u.phase.Follows steps job u.job)
      (fun _ _ _ h hstep ↦ Execution.follows_step h hstep) hrun rfl
  rw [hended] at hfollows
  exact hfollows

/-! ## A cancel before the runner is registered -/

/-- What the child of `siteManifest` writes. -/
def siteOutput : List UInt8 :=
  ascii ("\x7b\"event\": \"result\", \"artifacts\": [\x7b\"name\": \"site\", " ++
    "\"file\": \"site\", \"dir\": true, \"size\": 1\x7d]\x7d\n")

/-- The child runs to its end. -/
def toTheEnd : List ExecAction :=
  [.run (.readEvent none), .exit 0, .run .eventsEnd, .run .stderrEnd, .run .answer, .settle]

theorem cancel_honoured_iff_running :
    (execMachine (siteSteps (.int 0) (.ok ())) id).Always Execution.Honoured
        (Execution.start siteJob siteOutput [])
        [.load, .connect, .spawn none, .handle, .signal, .deliver, .cancelTask] ↔
      (execMachine (siteSteps (.int 0) (.ok ())) id).Meets Execution.Timely
        (Execution.start siteJob siteOutput [])
        [.load, .connect, .spawn none, .handle, .signal, .deliver, .cancelTask] := by
  have hsome : ((execMachine (siteSteps (.int 0) (.ok ())) id).run
      (Execution.start siteJob siteOutput [])
      [.load, .connect, .spawn none, .handle, .signal, .deliver, .cancelTask]).isSome = true := by
    decide +kernel
  obtain ⟨s, hs⟩ := Option.isSome_iff_exists.mp hsome
  exact cancel_honoured_iff rfl hs

/-- A cancel that is delivered while the connections are resolved is dropped: the child is never
signalled and the job is complete. -/
theorem droppedCancel_not_honoured :
    ∃ s, (execMachine (siteSteps (.int 0) (.ok ())) id).run
        (Execution.start siteJob siteOutput [])
        ([.load, .signal, .deliver, .connect, .spawn none, .handle] ++ toTheEnd) = some s ∧
      s.heard = true ∧ s.job.status = .complete ∧ s.signalled = false ∧ ¬ s.Honoured := by
  have hend : ((execMachine (siteSteps (.int 0) (.ok ())) id).run
      (Execution.start siteJob siteOutput [])
      ([.load, .signal, .deliver, .connect, .spawn none, .handle] ++ toTheEnd)).map
        (fun s ↦ (s.heard, s.job.status, s.signalled)) = some (true, .complete, false) := by
    decide +kernel
  obtain ⟨s, hs, hs'⟩ := Option.map_eq_some_iff.mp hend
  simp only [Prod.mk.injEq] at hs'
  refine ⟨s, hs, hs'.1, hs'.2.1, hs'.2.2, fun hhonoured ↦ ?_⟩
  exact (hhonoured hs'.1).1 hs'.2.1

end DatumSync.Worker
