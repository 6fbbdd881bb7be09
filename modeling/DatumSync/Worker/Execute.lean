import DatumSync.Jobs.Record
import DatumSync.Services
import DatumSync.Worker.Runner

/-!
# Executing a claimed job

`_execute` takes a claimed job through its steps.  Each step may raise anything; an `except`
clause around it names the families that end the job as failed, and everything else ends the task
with the row untouched.  What the steps ask of the database, the file system and the child is a
parameter, so a statement about every `Steps` is one about every way they can fail.
-/

namespace DatumSync.Worker

open Python Jobs

/-- The columns of a `jobs` row that a run reads and writes. -/
structure Job where
  id : Str
  repository : Str
  workspace : Str
  params : Str
  status : JobStatus
  artifacts : List Descriptor
  error : Option Json
  deriving DecidableEq

structure RunnerArgs where
  workspacePath : Str
  manifest : Manifest
  params : Json
  artifactDir : Str
  connections : Json

/-- What an execution asks of the database, the file system and the child. -/
structure Steps where
  /-- `pool.acquire()` -/
  acquire : Except Exc Unit
  /-- The stored manifest of `repository/workspace`. -/
  fetchManifest : Str → Str → Except Exc (Option Str)
  /-- `Manifest.model_validate` -/
  validate : Json → Except Exc Manifest
  /-- `uploads.resolve_params` -/
  resolveParams : Manifest → Json → Except Exc Json
  /-- `connections.resolve(conn, repository, workspace, names)` -/
  resolveConnections : Str → Str → List Str → Except Exc Json
  /-- `runner.run()` -/
  run : RunnerArgs → Except Exc RunResult
  /-- What `services.register` asks. -/
  services : Services.Outside
  /-- The `UPDATE` of `jobs.finish`, by the row it would write. -/
  update : Job → Except Exc Unit
  /-- The `pg_notify` of `jobs.finish`. -/
  notify : Job → Except Exc Unit
  /-- `type(e).__name__` -/
  typeName : Exc → Str
  /-- `config.REPOSITORIES_PATH` -/
  repositoriesPath : Str
  /-- `config.DATA_PATH` -/
  dataPath : Str
  /-- The nesting limit of `json.loads`. -/
  depth : ℕ

/-- `jobs.load_manifest_for(conn, job["repository"], job["workspace"])` -/
def Steps.loadManifest (steps : Steps) (job : Job) : Except Exc Manifest :=
  loadManifestFor steps.depth (steps.fetchManifest job.repository job.workspace) steps.validate
    job.repository job.workspace

/-- `uploads.resolve_params(manifest, json.loads(job["params"]))` -/
def Steps.loadParams (steps : Steps) (job : Job) (manifest : Manifest) : Except Exc Json :=
  match loads steps.depth job.params with
  | .error e => .error e
  | .ok params => steps.resolveParams manifest params

/-- `connections.resolve(...)` for the names the manifest declares. -/
def Steps.loadConnections (steps : Steps) (job : Job) (manifest : Manifest) : Except Exc Json :=
  steps.resolveConnections job.repository job.workspace
    (manifest.connections.map ConnectionRef.name)

/-- `services.register(conn, job_id, job["repository"], job["workspace"], artifacts)` -/
def Steps.register (steps : Steps) (job : Job) (artifacts : List Descriptor) :
    Except Exc (List Str) :=
  Services.register steps.services job.id job.repository job.workspace artifacts

def Steps.jobDir (steps : Steps) (job : Job) : Str :=
  join (cp '/') [steps.dataPath, str "jobs", job.id]

def Steps.runnerArgs (steps : Steps) (job : Job) (manifest : Manifest) (params connections : Json) :
    RunnerArgs where
  workspacePath := join (cp '/') [steps.repositoriesPath, job.repository, job.workspace]
  manifest := manifest
  params := params
  artifactDir := steps.jobDir job
  connections := connections

structure Finish where
  status : RunStatus
  artifacts : List Descriptor := []
  error : Option Json := none
  deriving DecidableEq

def RunStatus.toJobStatus : RunStatus → JobStatus
  | complete => .complete
  | failed => .failed
  | cancelled => .cancelled

theorem RunStatus.toJobStatus_isTerminal (status : RunStatus) :
    status.toJobStatus.isTerminal = true := by
  cases status <;> rfl

/-- The row after the `UPDATE` of `jobs.finish`. -/
def Job.finished (job : Job) (f : Finish) : Job :=
  { job with status := f.status.toJobStatus, artifacts := f.artifacts, error := f.error }

/-- `jobs.finish`: the row is written first and announced second. -/
def finish (steps : Steps) (f : Finish) (job : Job) : Except Exc Unit × Job :=
  match steps.update (job.finished f) with
  | .error e => (.error e, job)
  | .ok () => (steps.notify (job.finished f), job.finished f)

/-- `jobs.finish(conn, job_id, "failed", error=...)` -/
def finishFailed (steps : Steps) (message : Str) (job : Job) : Except Exc Unit × Job :=
  finish steps { status := .failed, error := some (.text message) } job

def isConnectionFailure (e : Exc) : Bool := e.isA .connectionStoreError || e.isA .cryptoError

/-- `_execute` after the run returned. -/
def publish (steps : Steps) (job : Job) (result : RunResult) : Except Exc Unit × Job :=
  let done : Finish := ⟨result.status, result.artifacts, result.error⟩
  if result.status = .complete then
    match steps.register job result.artifacts with
    | .error e =>
      if e.isA .serviceError then
        finish steps ⟨.failed, result.artifacts,
          some (.text (str "hosted service not published: " ++ e.message))⟩ job
      else (.error e, job)
    | .ok _ => finish steps done job
  else finish steps done job

def runAndPublish (steps : Steps) (job : Job) (args : RunnerArgs) : Except Exc Unit × Job :=
  match steps.run args with
  | .error e =>
    finishFailed steps (str "runner error: " ++ steps.typeName e ++ str ": " ++ e.message) job
  | .ok result => publish steps job result

/-- `Worker._execute`: how the task ends, and the row it leaves. -/
def execute (steps : Steps) (job : Job) : Except Exc Unit × Job :=
  match steps.acquire with
  | .error e => (.error e, job)
  | .ok () =>
    match steps.loadManifest job with
    | .error e =>
      if e.isA .jobError then finishFailed steps e.message job else (.error e, job)
    | .ok manifest =>
      match steps.loadParams job manifest with
      | .error e =>
        if e.isA .uploadError then finishFailed steps e.message job else (.error e, job)
      | .ok params =>
        match steps.loadConnections job manifest with
        | .error e =>
          if isConnectionFailure e then finishFailed steps e.message job else (.error e, job)
        | .ok connections =>
          runAndPublish steps job (steps.runnerArgs job manifest params connections)

/-! ## The exits of an execution -/

variable (steps : Steps) (job : Job)

/-- Every step before the run succeeded, with the arguments of the runner. -/
inductive Ready : RunnerArgs → Prop
  | intro {manifest : Manifest} {params connections : Json} (hacquire : steps.acquire = .ok ())
      (hmanifest : steps.loadManifest job = .ok manifest)
      (hparams : steps.loadParams job manifest = .ok params)
      (hconnections : steps.loadConnections job manifest = .ok connections) :
      Ready (steps.runnerArgs job manifest params connections)

/-- The calls of `jobs.finish` an execution can come to. -/
inductive Exit : Finish → Prop
  | noManifest {e : Exc} (hacquire : steps.acquire = .ok ())
      (hmanifest : steps.loadManifest job = .error e) (hclass : e.isA .jobError = true) :
      Exit { status := .failed, error := some (.text e.message) }
  | noParams {manifest : Manifest} {e : Exc} (hacquire : steps.acquire = .ok ())
      (hmanifest : steps.loadManifest job = .ok manifest)
      (hparams : steps.loadParams job manifest = .error e) (hclass : e.isA .uploadError = true) :
      Exit { status := .failed, error := some (.text e.message) }
  | noConnections {manifest : Manifest} {params : Json} {e : Exc}
      (hacquire : steps.acquire = .ok ()) (hmanifest : steps.loadManifest job = .ok manifest)
      (hparams : steps.loadParams job manifest = .ok params)
      (hconnections : steps.loadConnections job manifest = .error e)
      (hclass : isConnectionFailure e = true) :
      Exit { status := .failed, error := some (.text e.message) }
  | runFailed {args : RunnerArgs} {e : Exc} (hready : Ready steps job args)
      (hrun : steps.run args = .error e) :
      Exit { status := .failed, error := some (.text
        (str "runner error: " ++ steps.typeName e ++ str ": " ++ e.message)) }
  | notComplete {args : RunnerArgs} {result : RunResult} (hready : Ready steps job args)
      (hrun : steps.run args = .ok result) (hstatus : result.status ≠ .complete) :
      Exit ⟨result.status, result.artifacts, result.error⟩
  | notPublished {args : RunnerArgs} {result : RunResult} {e : Exc}
      (hready : Ready steps job args) (hrun : steps.run args = .ok result)
      (hstatus : result.status = .complete)
      (hregister : steps.register job result.artifacts = .error e)
      (hclass : e.isA .serviceError = true) :
      Exit ⟨.failed, result.artifacts,
        some (.text (str "hosted service not published: " ++ e.message))⟩
  | published {args : RunnerArgs} {result : RunResult} {names : List Str}
      (hready : Ready steps job args) (hrun : steps.run args = .ok result)
      (hstatus : result.status = .complete)
      (hregister : steps.register job result.artifacts = .ok names) :
      Exit ⟨result.status, result.artifacts, result.error⟩

/-- The failures no `except` clause names; what the run itself raises is always caught. -/
inductive Uncaught : Prop
  | acquire {e : Exc} (hacquire : steps.acquire = .error e)
  | manifest {e : Exc} (hacquire : steps.acquire = .ok ())
      (hmanifest : steps.loadManifest job = .error e) (hclass : e.isA .jobError = false)
  | params {manifest : Manifest} {e : Exc} (hacquire : steps.acquire = .ok ())
      (hmanifest : steps.loadManifest job = .ok manifest)
      (hparams : steps.loadParams job manifest = .error e) (hclass : e.isA .uploadError = false)
  | connections {manifest : Manifest} {params : Json} {e : Exc}
      (hacquire : steps.acquire = .ok ()) (hmanifest : steps.loadManifest job = .ok manifest)
      (hparams : steps.loadParams job manifest = .ok params)
      (hconnections : steps.loadConnections job manifest = .error e)
      (hclass : isConnectionFailure e = false)
  | register {args : RunnerArgs} {result : RunResult} {e : Exc} (hready : Ready steps job args)
      (hrun : steps.run args = .ok result) (hstatus : result.status = .complete)
      (hregister : steps.register job result.artifacts = .error e)
      (hclass : e.isA .serviceError = false)

/-- No failure gets past the `except` clauses, and the `UPDATE` the execution comes to succeeds. -/
structure Settles : Prop where
  caught : ¬ Uncaught steps job
  updated : ∀ f, Exit steps job f → steps.update (job.finished f) = .ok ()

variable {steps job}

theorem execute_of_ready {args : RunnerArgs} (h : Ready steps job args) :
    execute steps job = runAndPublish steps job args := by
  obtain ⟨hacquire, hmanifest, hparams, hconnections⟩ := h
  rw [execute, hacquire]
  dsimp only
  rw [hmanifest]
  dsimp only
  rw [hparams]
  dsimp only
  rw [hconnections]

theorem execute_of_published {args : RunnerArgs} {result : RunResult} (h : Ready steps job args)
    (hrun : steps.run args = .ok result) : execute steps job = publish steps job result := by
  rw [execute_of_ready h, runAndPublish, hrun]

/-- Each exit is the call of `finish` the execution ends with. -/
theorem execute_of_exit {f : Finish} (h : Exit steps job f) :
    execute steps job = finish steps f job := by
  cases h with
  | noManifest hacquire hmanifest hclass =>
    rw [execute, hacquire]
    dsimp only
    rw [hmanifest]
    exact if_pos hclass
  | noParams hacquire hmanifest hparams hclass =>
    rw [execute, hacquire]
    dsimp only
    rw [hmanifest]
    dsimp only
    rw [hparams]
    exact if_pos hclass
  | noConnections hacquire hmanifest hparams hconnections hclass =>
    rw [execute, hacquire]
    dsimp only
    rw [hmanifest]
    dsimp only
    rw [hparams]
    dsimp only
    rw [hconnections]
    exact if_pos hclass
  | runFailed hready hrun =>
    rw [execute_of_ready hready, runAndPublish, hrun]
    rfl
  | notComplete hready hrun hstatus =>
    rw [execute_of_published hready hrun]
    exact if_neg hstatus
  | notPublished hready hrun hstatus hregister hclass =>
    rw [execute_of_published hready hrun, publish, if_pos hstatus, hregister]
    exact if_pos hclass
  | published hready hrun hstatus hregister =>
    rw [execute_of_published hready hrun, publish, if_pos hstatus, hregister]

/-- A failure that is not caught ends the task before any `finish`. -/
theorem execute_of_uncaught (h : Uncaught steps job) : (execute steps job).2 = job := by
  cases h with
  | acquire hacquire => rw [execute, hacquire]
  | manifest hacquire hmanifest hclass =>
    rw [execute, hacquire]
    dsimp only
    rw [hmanifest]
    dsimp only
    rw [if_neg (by simp [hclass])]
  | params hacquire hmanifest hparams hclass =>
    rw [execute, hacquire]
    dsimp only
    rw [hmanifest]
    dsimp only
    rw [hparams]
    dsimp only
    rw [if_neg (by simp [hclass])]
  | connections hacquire hmanifest hparams hconnections hclass =>
    rw [execute, hacquire]
    dsimp only
    rw [hmanifest]
    dsimp only
    rw [hparams]
    dsimp only
    rw [hconnections]
    dsimp only
    rw [if_neg (by simp [hclass])]
  | register hready hrun hstatus hregister hclass =>
    rw [execute_of_published hready hrun, publish, if_pos hstatus, hregister]
    dsimp only
    rw [if_neg (by simp [hclass])]

/-- Every execution comes to a `finish` or to a failure no clause names. -/
theorem exit_or_uncaught (steps : Steps) (job : Job) :
    (∃ f, Exit steps job f) ∨ Uncaught steps job := by
  cases hacquire : steps.acquire with
  | error e => exact .inr (.acquire hacquire)
  | ok =>
    cases hmanifest : steps.loadManifest job with
    | error e =>
      cases hclass : e.isA .jobError with
      | true => exact .inl ⟨_, .noManifest hacquire hmanifest hclass⟩
      | false => exact .inr (.manifest hacquire hmanifest hclass)
    | ok manifest =>
      cases hparams : steps.loadParams job manifest with
      | error e =>
        cases hclass : e.isA .uploadError with
        | true => exact .inl ⟨_, .noParams hacquire hmanifest hparams hclass⟩
        | false => exact .inr (.params hacquire hmanifest hparams hclass)
      | ok params =>
        cases hconnections : steps.loadConnections job manifest with
        | error e =>
          cases hclass : isConnectionFailure e with
          | true =>
            exact .inl ⟨_, .noConnections hacquire hmanifest hparams hconnections hclass⟩
          | false => exact .inr (.connections hacquire hmanifest hparams hconnections hclass)
        | ok connections =>
          have hready := Ready.intro hacquire hmanifest hparams hconnections
          cases hrun : steps.run (steps.runnerArgs job manifest params connections) with
          | error e => exact .inl ⟨_, .runFailed hready hrun⟩
          | ok result =>
            by_cases hstatus : result.status = .complete
            · cases hregister : steps.register job result.artifacts with
              | error e =>
                cases hclass : e.isA .serviceError with
                | true =>
                  exact .inl ⟨_, .notPublished hready hrun hstatus hregister hclass⟩
                | false => exact .inr (.register hready hrun hstatus hregister hclass)
              | ok names => exact .inl ⟨_, .published hready hrun hstatus hregister⟩
            · exact .inl ⟨_, .notComplete hready hrun hstatus⟩

theorem finish_terminal_iff {f : Finish} (hrunning : job.status.isTerminal = false) :
    (finish steps f job).2.status.isTerminal = true ↔ steps.update (job.finished f) = .ok () := by
  unfold finish
  cases hupdate : steps.update (job.finished f) with
  | ok => exact iff_of_true f.status.toJobStatus_isTerminal rfl
  | error e => exact iff_of_false (by simp [hrunning]) nofun

/-- A claimed job is left in a terminal status exactly when no failure gets past the `except`
clauses and the final `UPDATE` succeeds; the notification does not matter. -/
theorem execute_terminal_iff (hrunning : job.status = .running) :
    (execute steps job).2.status.isTerminal = true ↔ Settles steps job := by
  have hnot : job.status.isTerminal = false := by
    rw [hrunning]
    rfl
  constructor
  · intro hterminal
    refine ⟨fun huncaught ↦ ?_, fun f hexit ↦ ?_⟩
    · rw [execute_of_uncaught huncaught, hnot] at hterminal
      cases hterminal
    · rw [execute_of_exit hexit] at hterminal
      exact (finish_terminal_iff hnot).mp hterminal
  · intro hsettles
    rcases exit_or_uncaught steps job with ⟨f, hexit⟩ | huncaught
    · rw [execute_of_exit hexit]
      exact (finish_terminal_iff hnot).mpr (hsettles.updated f hexit)
    · exact absurd huncaught hsettles.caught

/-! ## A workspace that publishes a site -/

/-- The site is the one output, a service directory. -/
def siteManifest : Manifest where
  outputs := [{ name := str "site", type := str "service/static" }]
  connections := []

/-- The artifact list of a run that names the site's directory `file`. -/
def siteArtifacts (file : Json) : Json :=
  .arr [.obj [(str "name", .text (str "site")), (str "file", file), (str "dir", .bool true),
    (str "size", .int 1)]]

/-- Everything outside works; the run reports `file`, and the announcement ends as given. -/
def siteSteps (file : Json) (announced : Except Exc Unit) : Steps where
  acquire := .ok ()
  fetchManifest _ _ := .ok (some (str ("\x7b\"name\": \"site\", \"outputs\": " ++
    "[\x7b\"name\": \"site\", \"type\": \"service/static\"\x7d]\x7d")))
  validate _ := .ok siteManifest
  resolveParams _ params := .ok params
  resolveConnections _ _ _ := .ok (.obj [])
  run args := (reconcile id args.manifest (siteArtifacts file)).map fun artifacts ↦
    { status := .complete, artifacts := artifacts }
  services :=
    { jobRoot := fun jobId ↦ .ok [str "data", str "jobs", jobId]
      resolve := fun root name ↦ .ok (root ++ [name])
      isDir := fun _ ↦ .ok true
      upsert := fun _ service ↦ .ok (some service.name)
      reprOf := id }
  update _ := .ok ()
  notify _ := announced
  typeName _ := str "ValueError"
  repositoriesPath := str "repositories"
  dataPath := str "data"
  depth := 100

def siteJob : Job where
  id := str "1"
  repository := str "web"
  workspace := str "site"
  params := str "\x7b\x7d"
  status := .running
  artifacts := []
  error := none

theorem execute_terminal_iff_site :
    (execute (siteSteps (.text (str "site")) (.error (.raised .databaseError [])))
        siteJob).2.status.isTerminal = true ↔
      Settles (siteSteps (.text (str "site")) (.error (.raised .databaseError []))) siteJob :=
  execute_terminal_iff rfl

/-- A run that reports a number as the directory of its site is reconciled, fails in `register`
with a `TypeError`, and leaves the row running although every step outside succeeds. -/
theorem execute_strands :
    (execute (siteSteps (.int 7) (.ok ())) siteJob).2.status = .running ∧
      ¬ ∀ (steps : Steps) (job : Job), job.status = .running →
        (execute steps job).2.status.isTerminal = true := by
  have hstranded : (execute (siteSteps (.int 7) (.ok ())) siteJob).2.status = .running := by
    decide +kernel
  refine ⟨hstranded, fun hall ↦ ?_⟩
  have hterminal := hall (siteSteps (.int 7) (.ok ())) siteJob rfl
  rw [hstranded] at hterminal
  cases hterminal

end DatumSync.Worker
