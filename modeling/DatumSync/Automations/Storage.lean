import DatumSync.Automations.Closure
import DatumSync.Automations.Firing
import DatumSync.Python.Jsonb
import Mathlib.Data.Set.List

/-!
# Storing a configuration

`create` and `replace` put the configuration that `parse` returns into a `jsonb` column, and
`consider` works on what it reads back.  Values of a document that JSON lacks or spells in another way are
refused or changed on the way.
-/

namespace DatumSync.Automations

open Python Jobs

variable (reprFloat : PyFloat → Str)

/-! ## The configuration as JSON -/

def Trigger.toJson (trigger : Trigger) : Option Json := do
  let repository ← trigger.repository.toJson reprFloat
  let workspace ← trigger.workspace.toJson reprFloat
  return .obj [
    (str "type", .text (str "job_complete")),
    (str "repository", repository),
    (str "workspace", workspace),
    (str "status", (trigger.status.map fun status ↦ Json.text (statusName status)).getD .null)]

def Action.toJson : Action → Option Json
  | .runWorkspace repository workspace params => do
    let params ← Yaml.toJson.toJsonFields reprFloat params
    return .obj [
      (str "type", .text (str "run_workspace")),
      (str "repository", .text repository),
      (str "workspace", .text workspace),
      (str "params", .obj params)]
  | .httpRequest url method headers body =>
    some (.obj [
      (str "type", .text (str "http_request")),
      (str "url", .text url),
      (str "method", .text method),
      (str "headers", .obj (headers.map fun header ↦ (header.1, .text header.2))),
      (str "body", (body.map Json.text).getD .null)])

def actionsToJson : List Action → Option (List Json)
  | [] => some []
  | action :: rest => do
    let v ← action.toJson reprFloat
    let vs ← actionsToJson rest
    return v :: vs

/-- What `json.dumps(config)` writes; undefined where it is a `TypeError` or a `ValueError`. -/
def Config.toJson (config : Config) : Option Json := do
  let trigger ← config.trigger.toJson reprFloat
  let actions ← actionsToJson reprFloat config.actions
  return .obj [
    (str "name", .text config.name),
    (str "enabled", .bool config.enabled),
    (str "trigger", trigger),
    (str "actions", .arr actions)]

/-! ## The configuration that is read back -/

def textOf : Json → Option Str
  | .text s => some s
  | _ => none

/-- `config["trigger"]["status"]`: a text, or false for any. -/
def statusOf : Json → Option (Option JobStatus)
  | .null => some none
  | .text s => some ([JobStatus.complete, .failed, .cancelled].find? fun status ↦
      statusName status == s)
  | _ => none

def Trigger.ofJson : Json → Option Trigger
  | .obj fields => do
    let kind ← (Json.field fields (str "type")).bind textOf
    guard (kind = str "job_complete")
    let repository ← Json.field fields (str "repository")
    let workspace ← Json.field fields (str "workspace")
    let status ← (Json.field fields (str "status")).bind statusOf
    return ⟨Yaml.ofJson repository, Yaml.ofJson workspace, status⟩
  | _ => none

/-- The items of `action["headers"]`; a value that is no text is no template. -/
def headersOf : List (Str × Json) → Option (List (Str × Str))
  | [] => some []
  | (key, value) :: rest => do
    let text ← textOf value
    let headers ← headersOf rest
    return (key, text) :: headers

def fieldsOf : Json → Option (List (Str × Json))
  | .obj fields => some fields
  | _ => none

def bodyOf : Json → Option (Option Str)
  | .null => some none
  | .text s => some (some s)
  | _ => none

/-- One entry of `config["actions"]`, as `_perform` reads it. -/
def Action.ofJson : Json → Option Action
  | .obj fields => do
    let kind ← (Json.field fields (str "type")).bind textOf
    if kind = str "run_workspace" then
      let repository ← (Json.field fields (str "repository")).bind textOf
      let workspace ← (Json.field fields (str "workspace")).bind textOf
      let params ← (Json.field fields (str "params")).bind fieldsOf
      return .runWorkspace repository workspace (Yaml.ofJson.ofJsonFields params)
    else
      let url ← (Json.field fields (str "url")).bind textOf
      let method ← (Json.field fields (str "method")).bind textOf
      let headers ← ((Json.field fields (str "headers")).bind fieldsOf).bind headersOf
      let body ← (Json.field fields (str "body")).bind bodyOf
      return .httpRequest url method headers body
  | _ => none

def actionsOf : List Json → Option (List Action)
  | [] => some []
  | v :: rest => do
    let action ← Action.ofJson v
    let actions ← actionsOf rest
    return action :: actions

def Config.ofJson : Json → Option Config
  | .obj fields => do
    let name ← (Json.field fields (str "name")).bind textOf
    let enabled ← Json.field fields (str "enabled")
    let trigger ← (Json.field fields (str "trigger")).bind Trigger.ofJson
    let actions ← (Json.field fields (str "actions")).bind fun v ↦ match v with
      | .arr items => actionsOf items
      | _ => none
    return ⟨name, enabled.truthy, trigger, actions⟩
  | _ => none

/-! ## The same treatment -/

variable (shown : Shown)

/-- `_perform` renders the same texts under the same names; the order of a dict is no matter. -/
def SameAction : Action → Action → Prop
  | .runWorkspace repository workspace params, .runWorkspace repository' workspace' params' =>
    repository' = repository ∧ workspace' = workspace ∧ ∀ context,
      (params'.map fun param ↦ (param.1, render (shown.strOf param.2) context)).Perm
        (params.map fun param ↦ (param.1, render (shown.strOf param.2) context))
  | .httpRequest url method headers body, .httpRequest url' method' headers' body' =>
    method' = method ∧ ∀ context, render url' context = render url context ∧
      (headers'.map fun header ↦ (header.1, render header.2 context)).Perm
        (headers.map fun header ↦ (header.1, render header.2 context)) ∧
      body'.map (render · context) = body.map (render · context)
  | _, _ => False

/-- `consider` treats both the same. -/
structure SameTreatment (config config' : Config) : Prop where
  matching : ∀ job, triggerMatches config'.trigger job = triggerMatches config.trigger job
  actions : List.Forall₂ (SameAction shown) config.actions config'.actions

/-- The configuration can be written, the column takes it, and what is read back is a configuration
that is treated the same. -/
def Preserved (jsonb : Jsonb) (config : Config) : Prop :=
  ∃ v, config.toJson reprFloat = some v ∧ ∃ v', jsonb.read v = some v' ∧
    ∃ config', Config.ofJson v' = some config' ∧ SameTreatment shown config config'

/-! ## What can be stored -/

/-- The texts of an action are plain, the names of its parameters are texts, and their values come
back as they are. -/
def Action.Storable (order : Str → Str → Bool) : Action → Prop
  | .runWorkspace repository workspace params =>
    isPlain repository = true ∧ isPlain workspace = true ∧
      (params.map fun param ↦ param.1.keyStr).Nodup ∧ Yaml.Kept.KeptFields order params
  | .httpRequest url _ headers body =>
    isPlain url = true ∧ (∀ header ∈ headers, isPlain header.1 = true ∧ isPlain header.2 = true) ∧
      ∀ text ∈ body, isPlain text = true

/-- The column takes the trigger, and every action comes back as it was. -/
structure Config.Storable (order : Str → Str → Bool) (config : Config) : Prop where
  name : isPlain config.name = true
  repository : config.trigger.repository.Taken reprFloat
  workspace : config.trigger.workspace.Taken reprFloat
  actions : ∀ action ∈ config.actions, action.Storable order

variable {reprFloat : PyFloat → Str} {shown : Shown} {jsonb : Jsonb}

/-! ## What `parse` promises -/

/-- The method of a request is one of `httpMethods`, and its headers are a dict. -/
def Action.WellFormed : Action → Prop
  | .runWorkspace .. => True
  | .httpRequest _ method headers _ => method ∈ httpMethods ∧ (headers.map Prod.fst).Nodup

theorem headerTexts_nodup (headers : List (Yaml × Yaml)) :
    ((headerTexts shown headers).map Prod.fst).Nodup := by
  have hstep : ∀ (texts : List (Str × Str)), (texts.map Prod.fst).Nodup →
      ((headers.foldl (fun texts entry ↦
        setItem texts (shown.strOf entry.1) (shown.strOf entry.2)) texts).map Prod.fst).Nodup := by
    induction headers with
    | nil => exact fun texts h ↦ h
    | cons entry rest ih => exact fun texts h ↦ ih _ (setItem_nodup h _ _)
  exact hstep [] List.nodup_nil

theorem parseAction_wellFormed {i : ℕ} {raw : Yaml} {action : Action}
    (h : parseAction shown i raw = .ok action) : action.WellFormed := by
  unfold parseAction at h
  split at h
  · dsimp only at h
    split at h
    · obtain ⟨_, _, h⟩ := bind_ok h
      obtain ⟨repository, _, h⟩ := bind_ok h
      obtain ⟨workspace, _, h⟩ := bind_ok h
      obtain ⟨params, _, h⟩ := bind_ok h
      obtain ⟨_, _, h⟩ := bind_ok h
      rw [← Except.ok.inj h]
      trivial
    · split at h
      · obtain ⟨_, _, h⟩ := bind_ok h
        split at h
        · obtain ⟨_, h⟩ := raiseIf_ok h
          obtain ⟨_, _, h⟩ := bind_ok h
          obtain ⟨hmethod, h⟩ := raiseIf_ok h
          obtain ⟨headers, _, h⟩ := bind_ok h
          obtain ⟨body, _, h⟩ := bind_ok h
          rw [← Except.ok.inj h]
          exact ⟨not_not.mp hmethod, headerTexts_nodup headers⟩
        · cases h
      · cases h
  · cases h

theorem parseActionsFrom_wellFormed {i : ℕ} {raws : List Yaml} {actions : List Action}
    (h : parseActionsFrom shown i raws = .ok actions) : ∀ action ∈ actions, action.WellFormed := by
  induction raws generalizing i actions with
  | nil =>
    rw [← Except.ok.inj h]
    exact List.forall_mem_nil _
  | cons raw rest ih =>
    obtain ⟨action, haction, h⟩ := bind_ok h
    obtain ⟨others, hothers, h⟩ := bind_ok h
    rw [← Except.ok.inj h]
    exact List.forall_mem_cons.2 ⟨parseAction_wellFormed haction, ih hothers⟩

theorem parseActions_wellFormed {raw : Yaml} {actions : List Action}
    (h : parseActions shown raw = .ok actions) : ∀ action ∈ actions, action.WellFormed := by
  unfold parseActions at h
  split at h
  · exact parseActionsFrom_wellFormed h
  · cases h

/-! ## What comes back of a configuration -/

theorem ofJsonFields_eq_map (fields : List (Str × Json)) :
    Yaml.ofJson.ofJsonFields fields =
      fields.map fun field ↦ (Yaml.text field.1, Yaml.ofJson field.2) := by
  induction fields with
  | nil => rfl
  | cons field rest ih => rw [Yaml.ofJson.ofJsonFields, ih, List.map_cons]

theorem isPlain_statusName (status : JobStatus) : isPlain (statusName status) = true := by
  cases status <;> decide

theorem isPlain_httpMethods {method : Str} (h : method ∈ httpMethods) : isPlain method = true :=
  (by decide : ∀ method ∈ httpMethods, isPlain method = true) method h

theorem statusOf_name {status : Option JobStatus}
    (h : ∀ s ∈ status, JobStatus.isTerminal s = true) :
    statusOf ((status.map fun s ↦ Json.text (statusName s)).getD .null) = some status := by
  cases status with
  | none => rfl
  | some s =>
    have hs := h s rfl
    cases s with
    | queued => cases hs
    | running => cases hs
    | complete => rfl
    | failed => rfl
    | cancelled => rfl

theorem read_status (status : Option JobStatus) :
    jsonb.read ((status.map fun s ↦ Json.text (statusName s)).getD .null) =
      some ((status.map fun s ↦ Json.text (statusName s)).getD .null) := by
  cases status with
  | none => exact jsonb.null
  | some s => exact jsonb.text _ (isPlain_statusName s)

/-- A trigger comes back with the same matches. -/
theorem Trigger.preserved {trigger : Trigger}
    (hterminal : ∀ status ∈ trigger.status, JobStatus.isTerminal status = true)
    (hrepository : trigger.repository.Taken reprFloat)
    (hworkspace : trigger.workspace.Taken reprFloat) :
    ∃ v v' trigger', trigger.toJson reprFloat = some v ∧ jsonb.read v = some v' ∧
      Trigger.ofJson v' = some trigger' ∧
      ∀ job, triggerMatches trigger' job = triggerMatches trigger job := by
  obtain ⟨repository, repository', hrep, hrepRead, hrepTruthy, hrepText⟩ :=
    @Yaml.Taken.read _ jsonb _ hrepository
  obtain ⟨workspace, workspace', hwork, hworkRead, hworkTruthy, hworkText⟩ :=
    @Yaml.Taken.read _ jsonb _ hworkspace
  have hkind := jsonb.text (str "job_complete") (by decide)
  have hstatus := @read_status jsonb trigger.status
  obtain ⟨found, hfound, hfields⟩ := @Jsonb.read_obj jsonb
    [(str "type", .text (str "job_complete")), (str "repository", repository),
      (str "workspace", workspace),
      (str "status", (trigger.status.map fun s ↦ Json.text (statusName s)).getD .null)]
    (by decide : [str "type", str "repository", str "workspace", str "status"].Nodup)
    (by simp only [List.forall_mem_cons]; decide)
    (by simp only [List.forall_mem_cons, hkind, hrepRead, hworkRead, hstatus]; simp)
  refine ⟨_, .obj found, ⟨Yaml.ofJson repository', Yaml.ofJson workspace', trigger.status⟩, ?_,
    hfound, ?_, fun job ↦ ?_⟩
  · rw [Trigger.toJson, hrep, hwork]
    rfl
  · rw [Trigger.ofJson, hfields (str "type") _ _ (by simp) hkind,
      hfields (str "repository") _ _ (by simp) hrepRead,
      hfields (str "workspace") _ _ (by simp) hworkRead,
      hfields (str "status") _ _ (by simp) hstatus]
    simp only [Option.bind_some, statusOf_name hterminal]
    rfl
  · simp only [triggerMatches, fieldMatches, Yaml.truthy_ofJson, Yaml.eqText_ofJson, hrepTruthy,
      hrepText, hworkTruthy, hworkText]

theorem headersOf_map (headers : List (Str × Str)) :
    headersOf (headers.map fun header ↦ (header.1, .text header.2)) = some headers := by
  induction headers with
  | nil => rfl
  | cons header rest ih =>
    rw [List.map_cons, headersOf, ih]
    rfl

/-- The items of a dict of texts come back in some order. -/
theorem headersOf_perm {headers : List (Str × Str)} {found : List (Str × Json)}
    (h : found.Perm (headers.map fun header ↦ (header.1, .text header.2))) :
    ∃ headers', headersOf found = some headers' ∧ headers'.Perm headers := by
  have hinj : Function.Injective fun header : Str × Str ↦ (header.1, Json.text header.2) := by
    rintro ⟨key, value⟩ ⟨key', value'⟩ heq
    obtain ⟨rfl, hvalue⟩ := Prod.mk.inj heq
    exact congrArg (Prod.mk key) (Json.text.inj hvalue)
  have hrange : found ∈ Set.range (List.map fun header : Str × Str ↦
      (header.1, Json.text header.2)) := by
    rw [Set.range_list_map]
    intro field hfield
    obtain ⟨header, _, heq⟩ := List.mem_map.1 (h.mem_iff.1 hfield)
    exact ⟨header, heq⟩
  obtain ⟨headers', rfl⟩ := hrange
  exact ⟨headers', headersOf_map headers', (List.map_perm_map_iff hinj).1 h⟩

theorem bodyOf_map (body : Option Str) :
    bodyOf ((body.map Json.text).getD .null) = some body := by
  cases body <;> rfl

theorem read_body {body : Option Str} (h : ∀ text ∈ body, isPlain text = true) :
    jsonb.read ((body.map Json.text).getD .null) = some ((body.map Json.text).getD .null) := by
  cases body with
  | none => exact jsonb.null
  | some text => exact jsonb.text _ (h text rfl)

/-- The parameters of a job come back in some order, their values as they are. -/
theorem runWorkspace_preserved {repository workspace : Str} {params : List (Yaml × Yaml)}
    (h : (Action.runWorkspace repository workspace params).Storable jsonb.order) :
    ∃ v v' action', Action.toJson reprFloat (.runWorkspace repository workspace params) = some v ∧
      jsonb.read v = some v' ∧ Action.ofJson v' = some action' ∧
      SameAction shown (.runWorkspace repository workspace params) action' := by
  obtain ⟨hrepository, hworkspace, hnodup, hkept⟩ := h
  obtain ⟨fs, hfs, hread, hback, hkeys, hplain⟩ := @Yaml.Kept.readFields reprFloat jsonb _ hkept
  have hparams := jsonb.obj fs (hkeys ▸ hnodup) hplain
  rw [hread, Option.map_some] at hparams
  have hperm := List.mergeSort_perm fs fun a b ↦ jsonb.order a.1 b.1
  generalize fs.mergeSort (fun a b ↦ jsonb.order a.1 b.1) = params' at hparams hperm
  have hkind := jsonb.text (str "run_workspace") (by decide)
  have hrep := jsonb.text repository hrepository
  have hwork := jsonb.text workspace hworkspace
  obtain ⟨found, hfound, hfields⟩ := @Jsonb.read_obj jsonb
    [(str "type", .text (str "run_workspace")), (str "repository", .text repository),
      (str "workspace", .text workspace), (str "params", .obj fs)]
    (by decide : [str "type", str "repository", str "workspace", str "params"].Nodup)
    (by simp only [List.forall_mem_cons]; decide)
    (by simp only [List.forall_mem_cons, hkind, hrep, hwork, hparams]; simp)
  refine ⟨_, .obj found, .runWorkspace repository workspace (Yaml.ofJson.ofJsonFields params'), ?_,
    hfound, ?_, rfl, rfl, fun context ↦ ?_⟩
  · rw [Action.toJson, hfs]
    rfl
  · rw [Action.ofJson, hfields (str "type") _ _ (by simp) hkind,
      hfields (str "repository") _ _ (by simp) hrep,
      hfields (str "workspace") _ _ (by simp) hwork,
      hfields (str "params") _ _ (by simp) hparams]
    rfl
  · rw [← hback, ofJsonFields_eq_map, ofJsonFields_eq_map]
    exact (hperm.map _).map _

/-- A request comes back with its headers in some order. -/
theorem httpRequest_preserved {url method : Str} {headers : List (Str × Str)} {body : Option Str}
    (hshape : (Action.httpRequest url method headers body).WellFormed)
    (h : (Action.httpRequest url method headers body).Storable jsonb.order) :
    ∃ v v' action', Action.toJson reprFloat (.httpRequest url method headers body) = some v ∧
      jsonb.read v = some v' ∧ Action.ofJson v' = some action' ∧
      SameAction shown (.httpRequest url method headers body) action' := by
  obtain ⟨hmethod, hnodup⟩ := hshape
  obtain ⟨hurlPlain, hheadersPlain, hbodyPlain⟩ := h
  have hkeys : ((headers.map fun header ↦ (header.1, Json.text header.2)).map Prod.fst).Nodup := by
    rwa [List.map_map]
  obtain ⟨fs, hheaders, hperm⟩ := @Jsonb.read_obj_self jsonb _ hkeys
    (by simpa only [List.forall_mem_map] using fun header hmem ↦ (hheadersPlain header hmem).1)
    (by simpa only [List.forall_mem_map] using
      fun header hmem ↦ jsonb.text _ (hheadersPlain header hmem).2)
  obtain ⟨headers', hheaders', hsame⟩ := headersOf_perm hperm
  have hkind := jsonb.text (str "http_request") (by decide)
  have hurl := jsonb.text url hurlPlain
  have hmeth := jsonb.text method (isPlain_httpMethods hmethod)
  have hbody := @read_body jsonb _ hbodyPlain
  obtain ⟨found, hfound, hfields⟩ := @Jsonb.read_obj jsonb
    [(str "type", .text (str "http_request")), (str "url", .text url),
      (str "method", .text method),
      (str "headers", .obj (headers.map fun header ↦ (header.1, .text header.2))),
      (str "body", (body.map Json.text).getD .null)]
    (by decide : [str "type", str "url", str "method", str "headers", str "body"].Nodup)
    (by simp only [List.forall_mem_cons]; decide)
    (by simp only [List.forall_mem_cons, hkind, hurl, hmeth, hheaders, hbody]; simp)
  refine ⟨_, .obj found, .httpRequest url method headers' body, rfl, hfound, ?_, rfl,
    fun context ↦ ⟨rfl, hsame.map _, rfl⟩⟩
  rw [Action.ofJson, hfields (str "type") _ _ (by simp) hkind,
    hfields (str "url") _ _ (by simp) hurl, hfields (str "method") _ _ (by simp) hmeth,
    hfields (str "headers") _ _ (by simp) hheaders, hfields (str "body") _ _ (by simp) hbody]
  simp only [Option.bind_some, fieldsOf, hheaders', bodyOf_map]
  rfl

/-- An action comes back as one that `_perform` treats the same. -/
theorem Action.preserved {action : Action} (hshape : action.WellFormed)
    (h : action.Storable jsonb.order) :
    ∃ v v' action', action.toJson reprFloat = some v ∧ jsonb.read v = some v' ∧
      Action.ofJson v' = some action' ∧ SameAction shown action action' := by
  cases action with
  | runWorkspace repository workspace params => exact runWorkspace_preserved h
  | httpRequest url method headers body => exact httpRequest_preserved hshape h

theorem actions_preserved {actions : List Action} (hshape : ∀ action ∈ actions, action.WellFormed)
    (h : ∀ action ∈ actions, action.Storable jsonb.order) :
    ∃ vs vs' actions', actionsToJson reprFloat actions = some vs ∧
      readItems jsonb.read vs = some vs' ∧ actionsOf vs' = some actions' ∧
      List.Forall₂ (SameAction shown) actions actions' := by
  induction actions with
  | nil => exact ⟨[], [], [], rfl, rfl, rfl, .nil⟩
  | cons action rest ih =>
    obtain ⟨hactionShape, hrestShape⟩ := List.forall_mem_cons.1 hshape
    obtain ⟨haction, hrest⟩ := List.forall_mem_cons.1 h
    obtain ⟨v, v', action', hv, hread, hback, hsame⟩ :=
      @Action.preserved reprFloat shown jsonb _ hactionShape haction
    obtain ⟨vs, vs', actions', hvs, hreads, hbacks, hsames⟩ := ih hrestShape hrest
    refine ⟨v :: vs, v' :: vs', action' :: actions', ?_, ?_, ?_, .cons hsame hsames⟩
    · rw [actionsToJson, hv, hvs]
      rfl
    · rw [readItems, hread, Option.bind_some, hreads, Option.map_some]
    · rw [actionsOf, hback, hbacks]
      rfl

/-- A configuration that is accepted, and that JSON and the column can hold, is read back as one
that is treated the same. -/
theorem preserved_of_storable {safeLoad : Str → Except Str Yaml} {text : Str} {config : Config}
    (hparse : parse shown safeLoad text = .ok config)
    (h : config.Storable reprFloat jsonb.order) : Preserved reprFloat shown jsonb config := by
  obtain ⟨fields, _, htrigger, hactions, _⟩ := parse_eq_ok hparse
  obtain ⟨trigger, found, trigger', ht, htRead, htBack, hmatching⟩ :=
    @Trigger.preserved reprFloat jsonb _ (parseTrigger_terminal htrigger) h.repository h.workspace
  obtain ⟨vs, vs', actions', hvs, hvsRead, hvsBack, hsame⟩ :=
    @actions_preserved reprFloat shown jsonb _ (parseActions_wellFormed hactions) h.actions
  have hname := jsonb.text config.name h.name
  have henabled := jsonb.bool config.enabled
  have harr := jsonb.arr vs
  rw [hvsRead, Option.map_some] at harr
  obtain ⟨found, hfound, hfields⟩ := @Jsonb.read_obj jsonb
    [(str "name", .text config.name), (str "enabled", .bool config.enabled),
      (str "trigger", trigger), (str "actions", .arr vs)]
    (by decide : [str "name", str "enabled", str "trigger", str "actions"].Nodup)
    (by simp only [List.forall_mem_cons]; decide)
    (by simp only [List.forall_mem_cons, hname, henabled, htRead, harr]; simp)
  refine ⟨_, ?_, .obj found, hfound, ⟨config.name, config.enabled, trigger', actions'⟩, ?_,
    hmatching, hsame⟩
  · rw [Config.toJson, ht, hvs]
    rfl
  · rw [Config.ofJson, hfields (str "name") _ _ (by simp) hname,
      hfields (str "enabled") _ _ (by simp) henabled,
      hfields (str "trigger") _ _ (by simp) htRead, hfields (str "actions") _ _ (by simp) harr]
    simp only [Option.bind_some, textOf, htBack, hvsBack]
    rfl

/-- Runs a workspace and posts a note when a run of `r/x` ends; the run is dated. -/
def nightlyTree (date : Yaml) : Yaml :=
  .mapping [(.text (str "name"), .text (str "nightly")),
    (.text (str "trigger"), .mapping [(.text (str "type"), .text (str "job_complete")),
      (.text (str "workspace"), .text (str "x")), (.text (str "status"), .text (str "failed"))]),
    (.text (str "actions"), .list [
      .mapping [(.text (str "type"), .text (str "run_workspace")),
        (.text (str "repository"), .text (str "r")), (.text (str "workspace"), .text (str "y")),
        (.text (str "params"), .mapping [(.text (str "since"), date)])],
      .mapping [(.text (str "type"), .text (str "http_request")),
        (.text (str "url"), .text (str "https://example.org/")),
        (.text (str "headers"), .mapping [(.text (str "X-Job"),
          .text (str "\x7b\x7bjob.id\x7d\x7d"))])]])]

def nightlyText (date : String) : Str :=
  str ("name: nightly\ntrigger:\n  type: job_complete\n  workspace: x\n  status: failed\n" ++
    "actions:\n  - type: run_workspace\n    repository: r\n    workspace: y\n    params:\n" ++
    "      since: " ++ date ++ "\n  - type: http_request\n    url: https://example.org/\n" ++
    "    headers:\n      X-Job: \"\x7b\x7bjob.id\x7d\x7d\"\n")

/-- The loaded document; unquoted the scalar is a date. -/
def nightlyLoad (date : String) (value : Yaml) (text : Str) : Except Str Yaml :=
  if text = nightlyText date then .ok (nightlyTree value) else .error (str "not the document")

def nightlyConfig (date : Yaml) : Config where
  name := str "nightly"
  enabled := true
  trigger := { repository := .null, workspace := .text (str "x"), status := some .failed }
  actions := [.runWorkspace (str "r") (str "y") [(.text (str "since"), date)],
    .httpRequest (str "https://example.org/") (str "POST")
      [(str "X-Job", str "\x7b\x7bjob.id\x7d\x7d")] none]

/-- A value that `str` shows as the text it holds. -/
def dateShown : Shown where
  strOf
    | .text s => s
    | .date s => s
    | _ => []
  reprOf
    | .text s => s
    | _ => []
  strOf_text _ := rfl

theorem nightlyConfig_storable :
    (nightlyConfig (.text (str "2026-01-01"))).Storable (fun _ ↦ []) Column.jsonb.order where
  name := by decide
  repository := trivial
  workspace := (by decide : isPlain (str "x") = true)
  actions := by
    refine List.forall_mem_cons.2 ⟨⟨by decide, by decide, by decide, ?_⟩,
      List.forall_mem_singleton.2 ⟨by decide, by decide, nofun⟩⟩
    exact ⟨⟨rfl, by decide⟩, (by decide : isPlain (str "2026-01-01") = true), trivial⟩

theorem preserved_of_storable_nightly :
    Preserved (fun _ ↦ []) dateShown Column.jsonb (nightlyConfig (.text (str "2026-01-01"))) :=
  @preserved_of_storable (fun _ ↦ []) dateShown Column.jsonb
    (nightlyLoad "\"2026-01-01\"" (.text (str "2026-01-01"))) (nightlyText "\"2026-01-01\"") _
    (by rw [parse, nightlyLoad, if_pos rfl]; rfl) nightlyConfig_storable

/-- A date is accepted as a value of a parameter, and is not JSON. -/
theorem nightly_date_not_preserved :
    parse dateShown (nightlyLoad "2026-01-01" (.date (str "2026-01-01")))
        (nightlyText "2026-01-01") = .ok (nightlyConfig (.date (str "2026-01-01"))) ∧
      ¬ Preserved (fun _ ↦ []) dateShown Column.jsonb
        (nightlyConfig (.date (str "2026-01-01"))) := by
  refine ⟨?_, ?_⟩
  · rw [parse, nightlyLoad, if_pos rfl]
    rfl
  · rintro ⟨v, hv, _⟩
    exact nomatch hv

end DatumSync.Automations
