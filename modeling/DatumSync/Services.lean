import DatumSync.Worker.Reconcile

/-!
# Registering hosted services

`register` points every service a job produced at the job's artifacts.  The file system and the
database are parameters; a resolved path is the list of its segments.
-/

namespace DatumSync.Services

open Python Worker

def static : List Str := [str "service/static", str "service/pwa", str "service/dashboard"]

def isService (type : Str) : Bool := startsWith type (str "service/")

/-- Every type that can be registered is a service type. -/
theorem isService_of_mem_static : ∀ type ∈ static, isService type = true := by decide +kernel

def serviceError (message : Str) : Exc := .raised .serviceError message

/-- One row of `hosted_services`, as `register` writes it. -/
structure Service where
  name : Str
  type : Str
  repository : Str
  workspace : Str
  sourceJob : Str
  path : List Str
  deriving DecidableEq

/-- What `register` asks of the file system and the database. -/
structure Outside where
  /-- `config.job_dir(job_id).resolve()` -/
  jobRoot : Str → Except Exc (List Str)
  /-- `(root / filename).resolve()` -/
  resolve : List Str → Str → Except Exc (List Str)
  /-- `path.is_dir()` -/
  isDir : List Str → Except Exc Bool
  /-- The upsert, after those of the names already registered: the name it returns. -/
  upsert : List Str → Service → Except Exc (Option Str)
  /-- `repr` of a text. -/
  reprOf : Str → Str

variable (outside : Outside)

/-- `_served_root`; a file that is no text cannot be joined to the root. -/
def servedRoot (jobId : Str) (filename : Json) : Except Exc (List Str) :=
  match outside.jobRoot jobId with
  | .error e => .error e
  | .ok root =>
    match filename with
    | .text name =>
      match outside.resolve root name with
      | .error e => .error e
      | .ok path =>
        if root.isPrefixOf path && root ≠ path then
          match outside.isDir path with
          | .error e => .error e
          | .ok true => .ok path
          | .ok false => .error (serviceError (outside.reprOf name ++ str " is not a directory"))
        else .error (serviceError
          (outside.reprOf name ++ str " resolves outside the job's artifacts"))
    | _ => .error (typeError "unsupported operand type(s) for /")

/-- The loop of `register`; `registered` is what it has registered so far. -/
def registerFrom (jobId repository workspace : Str) (registered : List Str) :
    List Descriptor → Except Exc (List Str)
  | [] => .ok registered
  | a :: rest =>
    if !isService a.type then registerFrom jobId repository workspace registered rest
    else if a.type ∉ static then
      .error (serviceError
        (outside.reprOf a.name ++ str ": cannot register a " ++ a.type ++ str " service"))
    else match servedRoot outside jobId a.file with
      | .error e => .error e
      | .ok path =>
        match outside.upsert registered ⟨a.name, a.type, repository, workspace, jobId, path⟩ with
        | .error e => .error e
        | .ok none =>
          .error (serviceError (str "service name " ++ outside.reprOf a.name ++
            str " is already held by another workspace"))
        | .ok (some _) => registerFrom jobId repository workspace (registered ++ [a.name]) rest

def register (jobId repository workspace : Str) (artifacts : List Descriptor) :
    Except Exc (List Str) :=
  registerFrom outside jobId repository workspace [] artifacts

variable {outside}

/-- The file system and the database answer `register` without raising. -/
structure Quiet (outside : Outside) : Prop where
  jobRoot : ∀ jobId e, outside.jobRoot jobId ≠ .error e
  resolve : ∀ root name e, outside.resolve root name ≠ .error e
  isDir : ∀ path e, outside.isDir path ≠ .error e
  upsert : ∀ registered service e, outside.upsert registered service ≠ .error e

theorem servedRoot_error {jobId : Str} {filename : Json} {e : Exc} (hquiet : Quiet outside)
    (hname : filename.isText = true) (h : servedRoot outside jobId filename = .error e) :
    e.isA .serviceError = true := by
  obtain ⟨name, rfl⟩ := Json.isText_iff.mp hname
  unfold servedRoot at h
  split at h
  · next e' hroot => exact absurd hroot (hquiet.jobRoot _ _)
  · dsimp only at h
    split at h
    · next e' hresolve => exact absurd hresolve (hquiet.resolve _ _ _)
    · split at h
      · split at h
        · next e' hdir => exact absurd hdir (hquiet.isDir _ _)
        · cases h
        · cases h
          rfl
      · cases h
        rfl

/-- Where nothing outside raises, a failed registration is a `ServiceError`, as long as the run
named every service directory by a text. -/
theorem registerFrom_error {jobId repository workspace : Str} {e : Exc} (hquiet : Quiet outside)
    {artifacts : List Descriptor} {registered : List Str}
    (hfiles : ∀ a ∈ artifacts, isService a.type = true → a.file.isText = true)
    (h : registerFrom outside jobId repository workspace registered artifacts = .error e) :
    e.isA .serviceError = true := by
  induction artifacts generalizing registered with
  | nil => cases h
  | cons a rest ih =>
    have hrest : ∀ b ∈ rest, isService b.type = true → b.file.isText = true :=
      fun b hb ↦ hfiles b (List.mem_cons_of_mem a hb)
    unfold registerFrom at h
    split at h
    · exact ih hrest h
    · next hservice =>
      have hservice : isService a.type = true := by simpa using hservice
      split at h
      · cases h
        rfl
      · split at h
        · next e' hroot =>
          cases h
          exact servedRoot_error hquiet (hfiles a List.mem_cons_self hservice) hroot
        · split at h
          · next e' hupsert => exact absurd hupsert (hquiet.upsert _ _ _)
          · cases h
            rfl
          · exact ih hrest h

/-- A service whose directory is not named by a text is a `TypeError` at the first such artifact:
no upsert is made for it, and `ServiceError` does not cover it. -/
theorem register_file_not_text {jobId repository workspace : Str} {root : List Str}
    {a : Descriptor} {rest : List Descriptor} (hroot : outside.jobRoot jobId = .ok root)
    (htype : a.type ∈ static) (hfile : a.file.isText = false) :
    register outside jobId repository workspace (a :: rest) =
      .error (typeError "unsupported operand type(s) for /") := by
  have hserved : servedRoot outside jobId a.file =
      .error (typeError "unsupported operand type(s) for /") := by
    unfold servedRoot
    rw [hroot]
    dsimp only
    split
    · next name hname =>
      rw [hname] at hfile
      cases hfile
    · rfl
  have hservice := isService_of_mem_static a.type htype
  rw [register, registerFrom, if_neg (by simp [hservice]), if_neg (not_not_intro htype), hserved]

end DatumSync.Services
