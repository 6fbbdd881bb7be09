import DatumSync.Automations.Document
import DatumSync.Foundation.Machine

/-!
# Firing automations

`consider` claims a finished job once and fires every automation that matches it.  The machine
takes jobs submitted from outside, jobs that end, and `consider` calls in any order; whether a
submission by an action succeeds is part of the step.  A stored configuration is what `parse`
returned: writing it as JSON and reading it back keeps the texts of a configuration and the truth
of its values, which is all that matching reads.
-/

namespace DatumSync.Automations

open Python Jobs Foundation

/-- The columns of a `jobs` row that automations read. -/
structure Job where
  repository : Str
  workspace : Str
  status : JobStatus
  triggeredBy : Option Str
  completedAt : ℕ := 0
  /-- `automations_at` is set. -/
  considered : Bool := false
  deriving DecidableEq

structure Automation where
  name : Str
  config : Config
  enabled : Bool
  createdAt : ℕ

/-- `trigger[key] and trigger[key] != name` is false. -/
def fieldMatches (value : Yaml) (name : Str) : Bool := !value.truthy || value.eqText name

def triggerMatches (trigger : Trigger) (job : Job) : Bool :=
  fieldMatches trigger.repository job.repository &&
    fieldMatches trigger.workspace job.workspace &&
    trigger.status.all (· == job.status)

/-- `f"automation:{name}"` -/
def automationTag (name : Str) : Str := str "automation:" ++ name

def wouldLoop (name : Str) (job : Job) : Bool := job.triggeredBy == some (automationTag name)

/-- Whether `consider` fires an automation on a finished job. -/
def fires (a : Automation) (job : Job) : Bool :=
  a.enabled && decide (a.createdAt ≤ job.completedAt) && triggerMatches a.config.trigger job &&
    !wouldLoop a.name job

/-- The job a `run_workspace` action of an automation submits. -/
def submitted (name : Str) : Action → Option Job
  | .runWorkspace repository workspace _ =>
    some { repository, workspace, status := .queued, triggeredBy := some (automationTag name) }
  | .httpRequest .. => none

/-- The actions of `_fire` from number `i` on: what they submit, where `succeeds` says which
submissions do. -/
def performFrom (name : Str) (succeeds : ℕ → Bool) : ℕ → List Action → List Job
  | _, [] => []
  | i, action :: rest =>
    (if succeeds i then (submitted name action).toList else []) ++
      performFrom name succeeds (i + 1) rest

def fire (a : Automation) (succeeds : ℕ → Bool) : List Job :=
  performFrom a.name succeeds 0 a.config.actions

structure FiringState where
  jobs : List Job
  /-- How many jobs `run_workspace` actions have created. -/
  created : ℕ

inductive FiringAction where
  /-- A job submitted from outside. -/
  | submit (repository workspace : Str) (triggeredBy : Option Str)
  /-- A job ends. -/
  | complete (job : ℕ) (status : JobStatus) (completedAt : ℕ)
  /-- `consider`; `succeeds` says which actions of which automation submit their job. -/
  | consider (job : ℕ) (succeeds : Str → ℕ → Bool)

variable (automations : List Automation)

/-- The jobs `consider` creates for a finished job. -/
def spawned (succeeds : Str → ℕ → Bool) (job : Job) : List Job :=
  (automations.filter fun a ↦ fires a job).flatMap fun a ↦ fire a (succeeds a.name)

def firingStep (s : FiringState) : FiringAction → Option FiringState
  | .submit repository workspace triggeredBy =>
    some { s with jobs := s.jobs ++ [{ repository, workspace, status := .queued, triggeredBy }] }
  | .complete i status completedAt =>
    match s.jobs[i]? with
    | some job =>
      if !job.status.isTerminal && status.isTerminal then
        some { s with jobs := s.jobs.set i { job with status, completedAt } }
      else none
    | none => none
  | .consider i succeeds =>
    match s.jobs[i]? with
    | some job =>
      if job.status.isTerminal && !job.considered then
        let new := spawned automations succeeds job
        some {
          jobs := s.jobs.set i { job with considered := true } ++ new
          created := s.created + new.length }
      else none
    | none => none

def firingMachine : Machine FiringState FiringAction := ⟨firingStep automations⟩

def firingStart : FiringState where
  jobs := []
  created := 0

def FiringAction.isSubmit : FiringAction → Bool
  | submit .. => true
  | _ => false

/-- However many jobs are submitted from outside, there is a bound on the jobs the actions create
in any run. -/
def LoopFree : Prop :=
  ∀ outside : ℕ, ∃ bound : ℕ, ∀ (actions : List FiringAction) (s : FiringState),
    (firingMachine automations).run firingStart actions = some s →
    actions.countP FiringAction.isSubmit ≤ outside → s.created ≤ bound

end DatumSync.Automations
