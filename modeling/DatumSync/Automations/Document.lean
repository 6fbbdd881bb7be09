import DatumSync.Automations.Template
import DatumSync.Jobs.Record
import DatumSync.Python.Yaml

/-!
# Parsing automation documents

`parse` validates the tree `yaml.safe_load` returns and builds the stored configuration.  Keys that
are not texts are no known keys; where they are to be listed in a message, sorting or joining them
is a `TypeError`.
-/

namespace DatumSync.Automations

open Python Jobs

/-- The `trigger` of a configuration; its type is always `job_complete`. -/
structure Trigger where
  repository : Yaml
  workspace : Yaml
  status : Option JobStatus

inductive Action where
  | runWorkspace (repository workspace : Str) (params : List (Yaml × Yaml))
  | httpRequest (url method : Str) (headers : List (Str × Str)) (body : Option Str)

structure Config where
  name : Str
  enabled : Bool
  trigger : Trigger
  actions : List Action

variable (shown : Shown)

/-- The check of the keys of a mapping. -/
def refuseUnknown (message : Str) (known : List Str) (fields : List (Yaml × Yaml)) :
    Except Exc Unit :=
  let unknown := (fields.map Prod.fst).filter fun key ↦ !known.any key.eqText
  if unknown.isEmpty then .ok ()
  else match Yaml.allTexts unknown with
    | some keys => .error (automationError (message ++ commaSorted keys))
    | none => .error (.raised .typeError (str "keys are not texts"))

/-- The name of a status, as `jobs.TERMINAL` spells it. -/
def statusName : JobStatus → Str
  | .queued => str "queued"
  | .running => str "running"
  | .complete => str "complete"
  | .failed => str "failed"
  | .cancelled => str "cancelled"

/-- The member of `jobs.TERMINAL` a value is equal to. -/
def terminalStatus (v : Yaml) : Option JobStatus :=
  [JobStatus.complete, .failed, .cancelled].find? fun status ↦ v.eqText (statusName status)

def parseTrigger (raw : Yaml) : Except Exc Trigger :=
  match raw with
  | .mapping fields => do
    let kind := Yaml.get fields (str "type")
    if !kind.eqText (str "job_complete") then
      throw (automationError (str "trigger type must be one of job_complete (got " ++
        shown.reprOf kind ++ str ")"))
    refuseUnknown (str "unknown trigger key(s): ")
      [str "type", str "repository", str "workspace", str "status"] fields
    let status := Yaml.get fields (str "status")
    if !status.isNull && (terminalStatus status).isNone then
      throw (automationError (str "trigger status must be one of complete, failed, cancelled"))
    return {
      repository := Yaml.get fields (str "repository")
      workspace := Yaml.get fields (str "workspace")
      status := terminalStatus status }
  | _ => .error (automationError (str "trigger is required and must be a mapping"))

/-- `f"action {i}"` -/
def actionLabel (i : ℕ) : Str := str "action " ++ decimal i

def requiredText (i : ℕ) (fields : List (Yaml × Yaml)) (key : Str) : Except Exc Str :=
  match Yaml.get fields key with
  | .text s =>
    if s.isEmpty then .error (automationError (actionLabel i ++ str ": " ++ key ++
      str " is required"))
    else .ok s
  | _ => .error (automationError (actionLabel i ++ str ": " ++ key ++ str " is required"))

/-- `action.get(key) or {}`, which must be a mapping. -/
def optionalMapping (i : ℕ) (fields : List (Yaml × Yaml)) (key : Str) :
    Except Exc (List (Yaml × Yaml)) :=
  let value := Yaml.get fields key
  if !value.truthy then .ok []
  else match value with
    | .mapping entries => .ok entries
    | _ => .error (automationError (actionLabel i ++ str ": " ++ key ++
        str " must be a mapping"))

/-- The loop that checks the templates of the parameter values. -/
def checkValues (origin : Str) : List (Yaml × Yaml) → Except Exc Unit
  | [] => .ok ()
  | (_, value) :: rest => do
    checkTemplate (shown.strOf value) origin
    checkValues origin rest

def parseRunWorkspace (i : ℕ) (fields : List (Yaml × Yaml)) : Except Exc Action := do
  refuseUnknown (actionLabel i ++ str ": unknown key(s): ")
    [str "type", str "repository", str "workspace", str "params"] fields
  let repository ← requiredText i fields (str "repository")
  let workspace ← requiredText i fields (str "workspace")
  let params ← optionalMapping i fields (str "params")
  checkValues shown (actionLabel i) params
  return .runWorkspace repository workspace params

def httpMethods : List Str := [str "GET", str "POST", str "PUT", str "PATCH", str "DELETE"]

/-- `{str(k): str(v) for k, v in headers.items()}` -/
def headerTexts (headers : List (Yaml × Yaml)) : List (Str × Str) :=
  headers.foldl (fun texts entry ↦ setItem texts (shown.strOf entry.1) (shown.strOf entry.2)) []

def parseBody (i : ℕ) (fields : List (Yaml × Yaml)) : Except Exc (Option Str) :=
  match Yaml.get fields (str "body") with
  | .null => .ok none
  | .text body =>
    match checkTemplate body (actionLabel i) with
    | .error e => .error e
    | .ok () => .ok (some body)
  | _ => .error (automationError (actionLabel i ++ str ": body must be a string"))

def parseHttpRequest (i : ℕ) (fields : List (Yaml × Yaml)) : Except Exc Action := do
  refuseUnknown (actionLabel i ++ str ": unknown key(s): ")
    [str "type", str "url", str "method", str "headers", str "body"] fields
  match Yaml.get fields (str "url") with
  | .text url =>
    if !startsWith url (str "http://") && !startsWith url (str "https://") then
      throw (automationError (actionLabel i ++ str ": url must be http:// or https://"))
    checkTemplate url (actionLabel i)
    let method := asciiUpper (shown.strOf
      (Yaml.getD fields (str "method") (.text (str "POST"))))
    if method ∉ httpMethods then
      throw (automationError (actionLabel i ++ str ": unsupported method " ++ method))
    let headers ← optionalMapping i fields (str "headers")
    let body ← parseBody i fields
    return .httpRequest url method (headerTexts shown headers) body
  | _ => throw (automationError (actionLabel i ++ str ": url must be http:// or https://"))

def parseAction (i : ℕ) (raw : Yaml) : Except Exc Action :=
  match raw with
  | .mapping fields =>
    let kind := Yaml.get fields (str "type")
    if kind.eqText (str "run_workspace") then parseRunWorkspace shown i fields
    else if kind.eqText (str "http_request") then parseHttpRequest shown i fields
    else .error (automationError (actionLabel i ++
      str ": type must be one of run_workspace, http_request (got " ++ shown.reprOf kind ++
      str ")"))
  | _ => .error (automationError (actionLabel i ++ str " must be a mapping"))

def parseActionsFrom (i : ℕ) : List Yaml → Except Exc (List Action)
  | [] => .ok []
  | raw :: rest => do
    let action ← parseAction shown i raw
    let actions ← parseActionsFrom (i + 1) rest
    return action :: actions

def parseActions (raw : Yaml) : Except Exc (List Action) :=
  match raw with
  | .list (first :: rest) => parseActionsFrom shown 1 (first :: rest)
  | _ => .error (automationError (str "actions must be a non-empty list"))

/-- `value in (None, name)` -/
def isNoneOr (value : Yaml) (name : Str) : Bool := value.isNull || value.eqText name

def rejectSelfTrigger (trigger : Trigger) : List Action → Except Exc Unit
  | [] => .ok ()
  | .runWorkspace repository workspace _ :: rest =>
    if isNoneOr trigger.workspace workspace && isNoneOr trigger.repository repository then
      .error (automationError (str "this automation runs " ++ repository ++ str "/" ++
        workspace ++ str " and also triggers on it, so every run would trigger the next"))
    else rejectSelfTrigger trigger rest
  | .httpRequest .. :: rest => rejectSelfTrigger trigger rest

def parseName (raw : Yaml) : Except Exc Str :=
  match raw with
  | .text name =>
    if (strip name).isEmpty then .error (automationError (str "name is required"))
    else .ok (strip name)
  | _ => .error (automationError (str "name is required"))

/-- `parse` of a loaded document. -/
def parseTree (doc : Yaml) : Except Exc Config :=
  match doc with
  | .mapping fields => do
    refuseUnknown (str "unknown key(s): ")
      [str "name", str "enabled", str "trigger", str "actions"] fields
    let name ← parseName (Yaml.get fields (str "name"))
    let trigger ← parseTrigger shown (Yaml.get fields (str "trigger"))
    let actions ← parseActions shown (Yaml.get fields (str "actions"))
    rejectSelfTrigger trigger actions
    return {
      name := name
      enabled := (Yaml.getD fields (str "enabled") (.bool true)).truthy
      trigger := trigger
      actions := actions }
  | _ => .error (automationError (str "an automation must be a YAML mapping"))

/-- `parse`; `safeLoad` is `yaml.safe_load`, with the text of a `YAMLError`. -/
def parse (safeLoad : Str → Except Str Yaml) (text : Str) : Except Exc Config :=
  match safeLoad text with
  | .error message => .error (automationError (str "not valid YAML: " ++ message))
  | .ok doc => parseTree shown doc

end DatumSync.Automations
