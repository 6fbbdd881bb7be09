import DatumSync.Services.Hosted
import DatumSync.Worker.Execute

/-!
# Registration against the table

`register` upserts one row after the other, without a transaction.  Which artifact is refused is
decided by the table before the registration; what was written before it stays.
-/

namespace DatumSync.Services

open Python Worker

/-- What raises in a statement of `register` that follows those of the names already registered. -/
abbrev Failures := List Str → Service → Option Exc

variable (outside : Outside) (failures : Failures) (jobId repository workspace : Str)

def heldError (name : Str) : Exc :=
  serviceError (str "service name " ++ outside.reprOf name ++
    str " is already held by another workspace")

/-- The loop of `register` and the table it leaves; of `outside` it asks the file system. -/
def registerIn : List Str → Hosted → List Descriptor → Except Exc (List Str) × Hosted
  | registered, hosted, [] => (.ok registered, hosted)
  | registered, hosted, a :: rest =>
    if !isService a.type then registerIn registered hosted rest
    else if a.type ∉ static then
      (.error (serviceError
        (outside.reprOf a.name ++ str ": cannot register a " ++ a.type ++ str " service")), hosted)
    else match servedRoot outside jobId a.file with
      | .error e => (.error e, hosted)
      | .ok path =>
        let service : Service := ⟨a.name, a.type, repository, workspace, jobId, path⟩
        match failures registered service with
        | some e => (.error e, hosted)
        | none =>
          match hosted.upsert service with
          | (hosted, none) => (.error (heldError outside a.name), hosted)
          | (hosted, some _) => registerIn (registered ++ [a.name]) hosted rest

/-- The answers of a table to the upserts of a registration: they depend on the table before it. -/
def answering (hosted : Hosted) : Outside :=
  { outside with upsert := fun registered service ↦
      match failures registered service with
      | some e => .error e
      | none => .ok (if hosted.isFree repository workspace service.name then some service.name
        else none) }

/-- What refuses a service artifact: its type, its directory, the statement, or the holder of its
name. -/
def refusal (hosted : Hosted) (registered : List Str) (a : Descriptor) : Option Exc :=
  if a.type ∉ static then
    some (serviceError
      (outside.reprOf a.name ++ str ": cannot register a " ++ a.type ++ str " service"))
  else match servedRoot outside jobId a.file with
    | .error e => some e
    | .ok path =>
      match failures registered ⟨a.name, a.type, repository, workspace, jobId, path⟩ with
      | some e => some e
      | none =>
        if hosted.isFree repository workspace a.name then none
        else some (heldError outside a.name)

/-- The first refusal among service artifacts, and the names before it. -/
def firstRefusal (hosted : Hosted) : List Str → List Descriptor → Option (List Str × Exc)
  | _, [] => none
  | registered, a :: rest =>
    match refusal outside failures jobId repository workspace hosted registered a with
    | some e => some (registered, e)
    | none => firstRefusal hosted (registered ++ [a.name]) rest

def serviceArtifacts (artifacts : List Descriptor) : List Descriptor :=
  artifacts.filter fun a ↦ isService a.type

/-- A registration points every service artifact's name at the job and returns all their names, or
it raises and leaves the table as it was; it changes no row of another workspace; and a job that
ends as failed because it was refused is the source of no row. -/
structure AllOrNothing (hosted : Hosted) (artifacts : List Descriptor) : Prop where
  whole : ∀ result after,
    registerIn outside failures jobId repository workspace [] hosted artifacts = (result, after) →
    (result = .ok ((serviceArtifacts artifacts).map Descriptor.name) ∧
      ∀ a ∈ serviceArtifacts artifacts, ∃ row, after.table.lookup a.name = some row ∧
        row.ownedBy repository workspace = true ∧ row.sourceJob = some jobId) ∨
    ((∃ e, result = .error e) ∧ ∀ name, after.table.lookup name = hosted.table.lookup name)
  others : hosted.SameOthers repository workspace
    (registerIn outside failures jobId repository workspace [] hosted artifacts).2
  failed : ∀ (steps : Steps) (job : Job) (result : RunResult),
    steps.services = answering outside failures repository workspace hosted → job.id = jobId →
    job.repository = repository → job.workspace = workspace → job.status = .running →
    result.status = .complete → result.artifacts = artifacts →
    (publish steps job result).2.status = .failed →
    ∀ name row,
      (registerIn outside failures jobId repository workspace [] hosted artifacts).2.table.lookup
        name = some row → row.sourceJob ≠ some jobId

/-- Only the first service artifact is refused; and where a `ServiceError` refuses it, no row of the
table names the job. -/
def RefusedFirst (hosted : Hosted) (artifacts : List Descriptor) : Prop :=
  ∀ before e, firstRefusal outside failures jobId repository workspace hosted []
      (serviceArtifacts artifacts) = some (before, e) →
    before = [] ∧ (e.isA .serviceError = true →
      ∀ name row, hosted.table.lookup name = some row → row.sourceJob ≠ some jobId)

/-- A name points at a job of the workspace. -/
def Points (jobId repository workspace : Str) (hosted : Hosted) (name : Str) : Prop :=
  ∃ row, hosted.table.lookup name = some row ∧ row.ownedBy repository workspace = true ∧
    row.sourceJob = some jobId

/-- Some row names a job and is later than `now`. -/
def Marked (jobId : Str) (now : ℕ) (hosted : Hosted) : Prop :=
  ∃ name row, hosted.table.lookup name = some row ∧ row.sourceJob = some jobId ∧
    now < row.updatedAt

/-- How a registration ends that has written `registered` to the table `start` and comes to
`services` with the table `hosted`. -/
structure Outcome (start hosted : Hosted) (registered : List Str) (services : List Descriptor)
    (done : Except Exc (List Str) × Hosted) : Prop where
  others : start.SameOthers repository workspace done.2
  finished : firstRefusal outside failures jobId repository workspace start registered services =
    none → done.1 = .ok (registered ++ services.map Descriptor.name) ∧
      (∀ a ∈ services, Points jobId repository workspace done.2 a.name) ∧
      ∀ name, Points jobId repository workspace hosted name →
        Points jobId repository workspace done.2 name
  refused : ∀ before e, firstRefusal outside failures jobId repository workspace start registered
      services = some (before, e) → done.1 = .error e ∧
    (before = registered → done.2.table = hosted.table) ∧
    ((before ≠ registered ∨ Marked jobId start.now hosted) → Marked jobId start.now done.2)

variable {outside failures jobId repository workspace} {hosted : Hosted} {registered : List Str}
  {a : Descriptor} {rest artifacts : List Descriptor}

/-! ## One artifact -/

theorem registerIn_skip (h : isService a.type = false) :
    registerIn outside failures jobId repository workspace registered hosted (a :: rest) =
      registerIn outside failures jobId repository workspace registered hosted rest := by
  rw [registerIn, if_pos (by simp [h])]

/-- A refused artifact ends the registration with the table as it is. -/
theorem registerIn_refused (hservice : isService a.type = true) {e : Exc}
    (h : refusal outside failures jobId repository workspace hosted registered a = some e) :
    ∃ after, registerIn outside failures jobId repository workspace registered hosted (a :: rest) =
      (.error e, after) ∧ after.table = hosted.table := by
  rw [registerIn, if_neg (by simp [hservice])]
  unfold refusal at h
  split at h
  · next htype =>
    rw [if_pos htype, ← Option.some.inj h]
    exact ⟨hosted, rfl, rfl⟩
  · next htype =>
    rw [if_neg htype]
    split at h
    · rw [← Option.some.inj h]
      exact ⟨hosted, rfl, rfl⟩
    · next path _ =>
      dsimp only
      split at h
      · rw [← Option.some.inj h]
        exact ⟨hosted, rfl, rfl⟩
      · split at h
        · cases h
        · next hheld =>
          have hfree := Bool.not_eq_true _ ▸ hheld
          have hwrite := (@Hosted.write_snd hosted
            ⟨a.name, a.type, repository, workspace, jobId, path⟩).trans hfree
          refine ⟨(hosted.upsert ⟨a.name, a.type, repository, workspace, jobId, path⟩).1, ?_,
            Hosted.write_refused hfree⟩
          rw [← Option.some.inj h]
          simp only [Hosted.upsert, hwrite, Bool.false_eq_true, if_false]

/-- An artifact that is not refused is written, and its name was free. -/
theorem registerIn_written (hservice : isService a.type = true)
    (h : refusal outside failures jobId repository workspace hosted registered a = none) :
    ∃ path, hosted.isFree repository workspace a.name = true ∧
      registerIn outside failures jobId repository workspace registered hosted (a :: rest) =
        registerIn outside failures jobId repository workspace (registered ++ [a.name])
          (hosted.upsert ⟨a.name, a.type, repository, workspace, jobId, path⟩).1 rest := by
  rw [registerIn, if_neg (by simp [hservice])]
  unfold refusal at h
  split at h
  · cases h
  · next htype =>
    rw [if_neg htype]
    split at h
    · cases h
    · next path _ =>
      dsimp only
      split at h
      · cases h
      · split at h
        · next hfree =>
          have hwrite := (@Hosted.write_snd hosted
            ⟨a.name, a.type, repository, workspace, jobId, path⟩).trans hfree
          refine ⟨path, hfree, ?_⟩
          simp only [Hosted.upsert, hwrite, if_true]
        · cases h

theorem Points.upsert {service : Service} {name : Str} (hjob : service.sourceJob = jobId)
    (hfree : hosted.isFree service.repository service.workspace service.name = true)
    (h : Points jobId service.repository service.workspace hosted name) :
    Points jobId service.repository service.workspace (hosted.upsert service).1 name := by
  by_cases hname : name = service.name
  · obtain ⟨row, hrow, howned, hsource, _⟩ := Hosted.lookup_write_self hfree
    exact ⟨row, hname ▸ hrow, howned, hsource.trans (congrArg some hjob)⟩
  · obtain ⟨row, hrow, hpoints⟩ := h
    exact ⟨row, (Hosted.lookup_write_ne hname).trans hrow, hpoints⟩

theorem Marked.upsert {service : Service} {now : ℕ} (hjob : service.sourceJob = jobId)
    (hfree : hosted.isFree service.repository service.workspace service.name = true)
    (hnow : now ≤ hosted.now) (h : Marked jobId now hosted) :
    Marked jobId now (hosted.upsert service).1 := by
  obtain ⟨name, row, hrow, hmarked⟩ := h
  by_cases hname : name = service.name
  · obtain ⟨row, hrow, _, hsource, htime⟩ := Hosted.lookup_write_self hfree
    exact ⟨service.name, row, hrow, hsource.trans (congrArg some hjob), by omega⟩
  · exact ⟨name, row, (Hosted.lookup_write_ne hname).trans hrow, hmarked⟩

theorem marked_upsert {service : Service} {now : ℕ} (hjob : service.sourceJob = jobId)
    (hfree : hosted.isFree service.repository service.workspace service.name = true)
    (hnow : now ≤ hosted.now) : Marked jobId now (hosted.upsert service).1 := by
  obtain ⟨row, hrow, _, hsource, htime⟩ := Hosted.lookup_write_self hfree
  exact ⟨service.name, row, hrow, hsource.trans (congrArg some hjob), by omega⟩

/-- What refuses an artifact looks at the rows of others only. -/
theorem refusal_congr {before after : Hosted}
    (h : before.SameOthers repository workspace after) (registered : List Str) (a : Descriptor) :
    refusal outside failures jobId repository workspace after registered a =
      refusal outside failures jobId repository workspace before registered a := by
  unfold refusal
  rw [h.isFree]

/-! ## A registration -/

theorem firstRefusal_length {start : Hosted} {services : List Descriptor} {before : List Str}
    {e : Exc} (h : firstRefusal outside failures jobId repository workspace start registered
      services = some (before, e)) : registered.length ≤ before.length := by
  induction services generalizing registered with
  | nil => cases h
  | cons a rest ih =>
    rw [firstRefusal] at h
    split at h
    · obtain ⟨rfl, -⟩ := Prod.mk.inj (Option.some.inj h)
      exact le_rfl
    · have hlength := ih h
      rw [List.length_append] at hlength
      exact Nat.le_of_add_right_le hlength

/-- The rows of others decide the artifact that is refused; the upserts before it stay. -/
theorem registerIn_outcome {start : Hosted} (hothers : start.SameOthers repository workspace hosted)
    (hnow : start.now ≤ hosted.now) (registered : List Str) (artifacts : List Descriptor) :
    Outcome outside failures jobId repository workspace start hosted registered
      (serviceArtifacts artifacts)
      (registerIn outside failures jobId repository workspace registered hosted artifacts) := by
  induction artifacts generalizing hosted registered with
  | nil =>
    exact ⟨hothers, fun _ ↦ ⟨by simp [registerIn, serviceArtifacts], nofun, fun _ h ↦ h⟩, nofun⟩
  | cons a rest ih =>
    cases hservice : isService a.type with
    | false =>
      have hskip : serviceArtifacts (a :: rest) = serviceArtifacts rest :=
        List.filter_cons_of_neg (by simp [hservice])
      rw [hskip, registerIn_skip hservice]
      exact ih hothers hnow registered
    | true =>
      have hkeep : serviceArtifacts (a :: rest) = a :: serviceArtifacts rest :=
        List.filter_cons_of_pos hservice
      have hcongr := @refusal_congr outside failures jobId repository workspace _ _ hothers
        registered a
      rw [hkeep]
      cases hrefusal : refusal outside failures jobId repository workspace start registered a with
      | some e =>
        obtain ⟨after, hend, htable⟩ :=
          @registerIn_refused _ _ _ _ _ _ _ _ rest hservice _ (hcongr.trans hrefusal)
        rw [hend]
        refine ⟨fun name row hrow ↦ ?_, fun hnone ↦ ?_, fun before e' hsome ↦ ?_⟩
        · rw [htable]
          exact hothers name row hrow
        · rw [firstRefusal, hrefusal] at hnone
          cases hnone
        · rw [firstRefusal, hrefusal] at hsome
          obtain ⟨rfl, rfl⟩ := Prod.mk.inj (Option.some.inj hsome)
          refine ⟨rfl, fun _ ↦ htable, ?_⟩
          rintro (hne | ⟨name, row, hrow, hmarked⟩)
          · exact absurd rfl hne
          · exact ⟨name, row, htable ▸ hrow, hmarked⟩
      | none =>
        obtain ⟨path, hfree, hend⟩ :=
          @registerIn_written _ _ _ _ _ _ _ _ rest hservice (hcongr.trans hrefusal)
        rw [hend]
        have hnext := hothers.trans (Hosted.sameOthers_upsert hosted
          ⟨a.name, a.type, repository, workspace, jobId, path⟩)
        have hrest := ih hnext (Nat.le_succ_of_le hnow) (registered ++ [a.name])
        have hfirst : firstRefusal outside failures jobId repository workspace start registered
            (a :: serviceArtifacts rest) = firstRefusal outside failures jobId repository workspace
              start (registered ++ [a.name]) (serviceArtifacts rest) := by
          rw [firstRefusal, hrefusal]
        refine ⟨hrest.others, fun hnone ↦ ?_, fun before e hsome ↦ ?_⟩
        · obtain ⟨hresult, hpoints, hkept⟩ := hrest.finished (hfirst.symm.trans hnone)
          refine ⟨?_, ?_, fun name hname ↦ hkept name (hname.upsert rfl hfree)⟩
          · rw [hresult, List.append_assoc, List.map_cons, List.singleton_append]
          · rw [List.forall_mem_cons]
            obtain ⟨row, hrow, howned, hsource, _⟩ := @Hosted.lookup_write_self hosted
              ⟨a.name, a.type, repository, workspace, jobId, path⟩ hfree
            exact ⟨hkept _ ⟨row, hrow, howned, hsource⟩, hpoints⟩
        · have hlater := hfirst.symm.trans hsome
          obtain ⟨hresult, _, hmarked⟩ := hrest.refused before e hlater
          refine ⟨hresult, fun hbefore ↦ ?_, fun _ ↦ hmarked (.inr (marked_upsert rfl hfree hnow))⟩
          have hlength := firstRefusal_length hlater
          rw [hbefore, List.length_append, List.length_singleton] at hlength
          omega

/-- `register` against the answers of a table returns and raises what the loop on the table does. -/
theorem registerFrom_answering {start : Hosted}
    (hothers : start.SameOthers repository workspace hosted) (registered : List Str)
    (artifacts : List Descriptor) :
    registerFrom (answering outside failures repository workspace start) jobId repository workspace
        registered artifacts =
      (registerIn outside failures jobId repository workspace registered hosted artifacts).1 := by
  induction artifacts generalizing hosted registered with
  | nil => rfl
  | cons a rest ih =>
    have hserved : servedRoot (answering outside failures repository workspace start) jobId a.file =
        servedRoot outside jobId a.file := rfl
    rw [registerFrom, registerIn, hserved]
    cases hservice : isService a.type with
    | false => exact ih hothers registered
    | true =>
      have hnot : ¬ (!true) = true := Bool.false_ne_true
      by_cases htype : a.type ∉ static
      · rw [if_neg hnot, if_neg hnot, if_pos htype, if_pos htype]
        rfl
      · rw [if_neg hnot, if_neg hnot, if_neg htype, if_neg htype]
        cases servedRoot outside jobId a.file with
        | error e => rfl
        | ok path =>
          have hfree := hothers.isFree a.name
          have hwrite := (@Hosted.write_snd hosted
            ⟨a.name, a.type, repository, workspace, jobId, path⟩).trans hfree
          simp only [answering, Hosted.upsert, hwrite]
          cases hfails : failures registered
            ⟨a.name, a.type, repository, workspace, jobId, path⟩ with
          | some e => rfl
          | none =>
            cases hstart : start.isFree repository workspace a.name with
            | true =>
              exact ih (hothers.trans (Hosted.sameOthers_upsert hosted
                ⟨a.name, a.type, repository, workspace, jobId, path⟩)) (registered ++ [a.name])
            | false => rfl

theorem register_answering (hosted : Hosted) (artifacts : List Descriptor) :
    register (answering outside failures repository workspace hosted) jobId repository workspace
        artifacts =
      (registerIn outside failures jobId repository workspace [] hosted artifacts).1 :=
  registerFrom_answering (Hosted.SameOthers.refl repository workspace hosted) [] artifacts

/-- A complete run whose job ends as failed was refused by a `ServiceError`. -/
theorem refused_of_failed {steps : Steps} {job : Job} {result : RunResult}
    (hrunning : job.status = .running) (hcomplete : result.status = .complete)
    (h : (publish steps job result).2.status = .failed) :
    ∃ e, steps.register job result.artifacts = .error e ∧ e.isA .serviceError = true := by
  rw [publish, if_pos hcomplete] at h
  have hkept (f : Finish) : (finish steps f job).2.status = .running ∨
      (finish steps f job).2.status = f.status.toJobStatus := by
    unfold finish
    split
    · exact .inl hrunning
    · exact .inr rfl
  split at h
  · next e hregister =>
    split at h
    · next hclass => exact ⟨e, hregister, hclass⟩
    · rw [hrunning] at h
      cases h
  · rcases hkept ⟨result.status, result.artifacts, result.error⟩ with hstatus | hstatus
    · rw [hstatus] at h
      cases h
    · rw [hstatus, hcomplete] at h
      cases h

/-- Where the final update succeeds, such a refusal ends the job as failed. -/
theorem failed_of_refused {steps : Steps} {job : Job} {result : RunResult} {e : Exc}
    (hupdate : ∀ row, steps.update row = .ok ()) (hcomplete : result.status = .complete)
    (hregister : steps.register job result.artifacts = .error e)
    (hclass : e.isA .serviceError = true) : (publish steps job result).2.status = .failed := by
  rw [publish, if_pos hcomplete, hregister]
  simp only [hclass, if_true, finish, hupdate]
  rfl

/-- A registration is all or nothing just when only the first service artifact is refused and, where
that ends the job as failed, no row names the job from before. -/
theorem allOrNothing_iff (outside : Outside) (failures : Failures)
    (jobId repository workspace : Str) (hosted : Hosted) (artifacts : List Descriptor) :
    AllOrNothing outside failures jobId repository workspace hosted artifacts ↔
      RefusedFirst outside failures jobId repository workspace hosted artifacts := by
  have houtcome := @registerIn_outcome outside failures jobId repository workspace hosted hosted
    (Hosted.SameOthers.refl repository workspace hosted) le_rfl [] artifacts
  constructor
  · intro h before e hrefusal
    obtain ⟨herror, hsame, hmarked⟩ := houtcome.refused before e hrefusal
    have hbefore : before = [] := by
      by_contra hne
      rcases h.whole _ _ rfl with ⟨hok, _⟩ | ⟨_, hequal⟩
      · rw [herror] at hok
        cases hok
      · obtain ⟨name, row, hrow, _, hlater⟩ := hmarked (.inl hne)
        rw [hequal] at hrow
        exact absurd (hosted.earlier name row hrow) (by omega)
    refine ⟨hbefore, fun hclass name row hrow ↦ ?_⟩
    let steps : Steps := { siteSteps .null (.ok ()) with
      services := answering outside failures repository workspace hosted }
    let job : Job := { siteJob with id := jobId, repository := repository, workspace := workspace }
    have hregister : steps.register job artifacts = .error e :=
      (register_answering hosted artifacts).trans herror
    have hfailed : (publish steps job ⟨.complete, artifacts, none⟩).2.status = .failed :=
      failed_of_refused (fun _ ↦ rfl) rfl hregister hclass
    exact h.failed steps job ⟨.complete, artifacts, none⟩ rfl rfl rfl rfl rfl rfl rfl hfailed name
      row (hsame hbefore ▸ hrow)
  · intro h
    refine ⟨fun result after hend ↦ ?_, houtcome.others, ?_⟩
    · rw [hend] at houtcome
      cases hrefusal : firstRefusal outside failures jobId repository workspace hosted []
          (serviceArtifacts artifacts) with
      | none =>
        obtain ⟨hok, hpoints, _⟩ := houtcome.finished hrefusal
        exact .inl ⟨hok, hpoints⟩
      | some found =>
        obtain ⟨before, e⟩ := found
        obtain ⟨herror, hsame, _⟩ := houtcome.refused before e hrefusal
        refine .inr ⟨⟨e, herror⟩, fun name ↦ ?_⟩
        rw [hsame (h before e hrefusal).1]
    · intro steps job result hservices hid hrepository hworkspace hrunning hcomplete hartifacts
        hfailed name row hrow
      obtain ⟨e, hregister, hclass⟩ := refused_of_failed hrunning hcomplete hfailed
      rw [Steps.register, hservices, hid, hrepository, hworkspace, hartifacts,
        register_answering] at hregister
      cases hrefusal : firstRefusal outside failures jobId repository workspace hosted []
          (serviceArtifacts artifacts) with
      | none =>
        rw [(houtcome.finished hrefusal).1] at hregister
        cases hregister
      | some found =>
        obtain ⟨before, e'⟩ := found
        obtain ⟨herror, hsame, _⟩ := houtcome.refused before e' hrefusal
        obtain ⟨hbefore, hnamed⟩ := h before e' hrefusal
        rw [herror] at hregister
        rw [hsame hbefore] at hrow
        exact hnamed (Except.error.inj hregister ▸ hclass) name row hrow

/-! ## A job with two sites -/

def twoSites : List Descriptor := [
  ⟨str "docs", str "service/static", true, .text (str "docs"), true, .int 1⟩,
  ⟨str "app", str "service/static", false, .text (str "app"), true, .int 1⟩]

def otherRow : HostedRow where
  type := str "service/static"
  repository := str "web"
  workspace := str "other"
  sourceJob := some (str "0")
  path := some [str "data", str "jobs", str "0", str "app"]
  updatedAt := 0

/-- A table where another workspace serves `app`. -/
def appHeld : Hosted where
  table := AList.singleton (str "app") otherRow
  now := 0
  earlier name row h := by
    have hmem := AList.mem_lookup_iff.mp (Option.mem_def.mpr h)
    obtain ⟨rfl, hrow⟩ := Sigma.mk.inj (List.mem_singleton.mp hmem)
    rw [eq_of_heq hrow]
    exact le_rfl

/-- The second site is refused, and the first is served from the refused job. -/
theorem twoSites_not_allOrNothing :
    ¬ AllOrNothing (siteSteps .null (.ok ())).services (fun _ _ ↦ none) (str "1") (str "web")
      (str "site") appHeld twoSites := by
  intro h
  rcases h.whole _ _ rfl with ⟨hok, _⟩ | ⟨_, hsame⟩
  · cases hok
  · have hdocs := congrArg Option.isSome (hsame (str "docs"))
    revert hdocs
    decide +kernel

end DatumSync.Services
