import DatumSync.Mcp.Target
import DatumSync.Mcp.Tools
import DatumSync.Vault.Files

/-!
# The MCP endpoint

`endpoint` is one authenticated `POST /mcp`: the body `json.loads` made of the request goes
through the envelope checks, the method lookup, the call target, the handler, the two call logs
and the response.  A step that raises ends the request without an answer of its own.

The state is what the request leaves behind: the rows of `mcp_call_log`, the audit log, and how
often `_log_call` was entered.
-/

namespace DatumSync.Mcp

open Python

structure CallRow where
  accountId : ℤ
  accountName : Str
  method : Str
  toolName : Json
  target : Json
  isGovernance : Bool
  outcome : Audit.Outcome
  errorCode : Option ℤ
  durationMs : ℤ
  clientTraceId : Option Str

/-- Both logs, and the number of records attempted. -/
structure Logs where
  calls : List CallRow
  audit : Audit.Log
  attempts : ℕ

/-- A backend whose vault tools work on a disk and whose other tools return an empty result. -/
def diskBackend (disk : Vault.Disk) (scope : Option Vault.Scope) : Backend where
  proxyRequest _ _ _ _ _ _ := ⟨[], .ok (.obj [])⟩
  vaultRead := Vault.read disk scope
  vaultWrite := Vault.write disk scope
  vaultList path := (Vault.listDir scope path disk.tree).map Vault.Listing.toJson
  catalogue := .ok []
  runSync _ _ := .ok (.obj [])
  contentBlocks _ := .ok (.arr [])

/-- How the database answers while a call is recorded. -/
structure Database where
  acquire : Bool
  insertCall : CallRow → Bool
  insertAudit : Audit.Row → Bool

/-- What one request runs against. -/
structure Env where
  backend : Backend
  rendering : Rendering
  database : Database
  durationMs : ℤ

/-- The row `_log_call` inserts into `mcp_call_log`. -/
def callRow (env : Env) (principal : Principal) (trace : Audit.Trace) (method : Str)
    (toolName target : Json) (governance : Bool) (outcome : Audit.Outcome)
    (errorCode : Option ℤ) : CallRow where
  accountId := principal.accountId
  accountName := principal.name
  method := method
  toolName := toolName
  target := target
  isGovernance := governance
  outcome := outcome
  errorCode := errorCode
  durationMs := env.durationMs
  clientTraceId := trace.clientId

/-- The entry `_log_call` hands to `audit.write`. -/
def callEntry (env : Env) (method : Str) (toolName target : Json) (governance : Bool)
    (outcome : Audit.Outcome) (errorCode : Option ℤ) : Audit.Entry where
  via := str "mcp"
  verb := verb method
  targetKind := targetKind method toolName
  target := target
  outcome := outcome
  errorCode := errorCode
  durationMs := some env.durationMs
  governance := governance
  detail := if toolName.truthy then some [(str "tool", toolName)] else none

/-- `_log_call`: everything after a failed step is skipped, and the failure is swallowed. -/
def logCall (env : Env) (principal : Principal) (trace : Audit.Trace) (method : Str)
    (toolName target : Json) (outcome : Audit.Outcome) (errorCode : Option ℤ) (logs : Logs) :
    Logs :=
  let logs := { logs with attempts := logs.attempts + 1 }
  if env.database.acquire then
    match isGovernance target with
    | .error _ => logs
    | .ok governance =>
      let row := callRow env principal trace method toolName target governance outcome errorCode
      if env.database.insertCall row then
        { logs with
          calls := logs.calls ++ [row]
          audit := Audit.write env.database.insertAudit trace principal
            (callEntry env method toolName target governance outcome errorCode) logs.audit }
      else logs
  else logs

def toolsCall (env : Env) (principal : Principal) (trace : Audit.Trace)
    (params : List (Str × Json)) (log : Audit.Log) : Except Exc Json × Audit.Log :=
  match Json.fieldD params (str "name") .null with
  | .text name =>
    match (Json.fieldD params (str "arguments") .null).orElse (.obj []) with
    | .obj args =>
      if name = proxyToolName then
        proxyCall env.backend env.database.insertAudit trace principal args log
      else if vaultToolNames.contains name then
        (vaultCall env.backend env.rendering name args, log)
      else (workspaceCall env.backend env.rendering name args, log)
    | _ => (.error (.rpc invalidParams (str "arguments must be an object") none), log)
  | _ => (.error (.rpc invalidParams (str "name is required") none), log)

def handle (env : Env) (principal : Principal) (trace : Audit.Trace) (method : Method)
    (params : List (Str × Json)) (log : Audit.Log) : Except Exc Json × Audit.Log :=
  match method with
  | .initializeCall => (.ok (initializeCall params), log)
  | .ping => (.ok (.obj []), log)
  | .toolsList => (toolsList env.backend principal, log)
  | .toolsCall => toolsCall env principal trace params log

inductive Response where
  | rpc (content : Json)
  | accepted

/-- `{"jsonrpc": "2.0", "id": ..., "result": ...}` -/
def resultEnvelope (requestId result : Json) : Json :=
  .obj [(str "jsonrpc", .text (str "2.0")), (str "id", requestId), (str "result", result)]

/-- `{"jsonrpc": "2.0", "id": ..., "error": ...}` -/
def errorEnvelope (requestId : Json) (code : ℤ) (message : Str) (data : Option Json) : Json :=
  let error := [(str "code", .int code), (str "message", .text message)]
  .obj [(str "jsonrpc", .text (str "2.0")), (str "id", requestId),
    (str "error", .obj (match data with
      | none => error
      | some d => error ++ [(str "data", d)]))]

/-- `JSONResponse(content)`, which encodes the content at once. -/
def respond (env : Env) (content : Json) : Except Exc Response :=
  if content.renders env.rendering.depthLimit then .ok (.rpc content)
  else .error (.raised .valueError (str "content is not JSON serializable"))

def rpcError (env : Env) (requestId : Json) (code : ℤ) (message : Str) (data : Option Json) :
    Except Exc Response := respond env (errorEnvelope requestId code message data)

/-- `endpoint` from the call of the handler on. -/
def dispatch (env : Env) (principal : Principal) (trace : Audit.Trace) (requestId : Json)
    (method : Method) (params : List (Str × Json)) (toolName target : Json) (logs : Logs) :
    Except Exc Response × Logs :=
  let (outcome, log) := handle env principal trace method params logs.audit
  let logs := { logs with audit := log }
  match outcome with
  | .error (.rpc code message data) =>
    (rpcError env requestId code message data,
      logCall env principal trace method.name toolName target .error (some code) logs)
  | .error e => (.error e, logs)
  | .ok result =>
    (respond env (resultEnvelope requestId result),
      logCall env principal trace method.name toolName target .ok none logs)

/-- `endpoint` for a JSON-RPC 2.0 message. -/
def message (env : Env) (principal : Principal) (trace : Audit.Trace)
    (body : List (Str × Json)) (logs : Logs) : Except Exc Response × Logs :=
  let method := Json.fieldD body (str "method") .null
  let requestId := Json.fieldD body (str "id") .null
  match (Json.fieldD body (str "params") .null).orElse (.obj []) with
  | .obj params =>
    if requestId = .null then (.ok .accepted, logs)
    else if !method.hashable then (.error (.raised .typeError (str "unhashable type")), logs)
    else match Method.ofJson method with
      | none =>
        (rpcError env requestId methodNotFound
          (str "unknown method " ++ env.rendering.reprOf method) none, logs)
      | some known =>
        let toolName := if known = .toolsCall then Json.fieldD params (str "name") .null else .null
        match callTarget env.rendering.strOf known.name toolName params with
        | .error e => (.error e, logs)
        | .ok target => dispatch env principal trace requestId known params toolName target logs
  | _ => (rpcError env requestId invalidParams (str "params must be an object") none, logs)

/-- `endpoint`, from the end of `json.loads` on. -/
def endpoint (env : Env) (principal : Principal) (trace : Audit.Trace)
    (loaded : Except Exc Json) (logs : Logs) : Except Exc Response × Logs :=
  match loaded with
  | .error e =>
    if e.isA .jsonDecodeError || e.isA .unicodeError then
      (rpcError env .null parseError (str "request body is not valid JSON") none, logs)
    else (.error e, logs)
  | .ok (.arr _) =>
    (rpcError env .null invalidRequest (str "JSON-RPC batching is not supported") none, logs)
  | .ok (.obj body) =>
    if (Json.fieldD body (str "jsonrpc") .null).eqText (str "2.0") then
      message env principal trace body logs
    else (rpcError env .null invalidRequest (str "not a JSON-RPC 2.0 message") none, logs)
  | .ok _ => (rpcError env .null invalidRequest (str "not a JSON-RPC 2.0 message") none, logs)

theorem logCall_attempts (env : Env) (principal : Principal) (trace : Audit.Trace) (method : Str)
    (toolName target : Json) (outcome : Audit.Outcome) (errorCode : Option ℤ) (logs : Logs) :
    (logCall env principal trace method toolName target outcome errorCode logs).attempts =
      logs.attempts + 1 := by
  unfold logCall
  dsimp only
  split
  · split
    · rfl
    · split <;> rfl
  · rfl

/-! ## A deployment that accepts everything -/

/-- An account that may read and write the whole vault. -/
def openScope : Vault.Scope where
  fields := [(str "read", .arr [.text (str "**")]), (str "write", .arr [.text (str "**")])]
  valid := by decide +kernel

def openPrincipal : Principal where
  accountId := 1
  name := str "writer"
  maxTier := 5
  repoScope := [str "*"]
  isAdmin := false
  source := .token
  vaultScope := some openScope
  rateLimitPerMin := none

/-- An empty vault where every store succeeds, and a database that takes every row. -/
def openEnv : Env where
  backend := diskBackend ⟨fun _ ↦ none, fun _ _ ↦ .ok (), fun _ ↦ none⟩ (some openScope)
  rendering := ⟨fun v ↦ match v with | .text s => s | _ => [], fun _ ↦ [], fun _ ↦ [], 100⟩
  database := ⟨true, fun _ ↦ true, fun _ ↦ true⟩
  durationMs := 1

def emptyLogs : Logs := ⟨[], ⟨[], 0⟩, 0⟩

/-- `{"jsonrpc": "2.0", "id": 1, "method": "tools/call", "params": ...}` for a vault tool. -/
def vaultMessage (tool : String) (args : List (Str × Json)) : List (Str × Json) :=
  [(str "jsonrpc", .text (str "2.0")), (str "id", .int 1),
    (str "method", .text (str "tools/call")),
    (str "params", .obj [(str "name", .text (str tool)), (str "arguments", .obj args)])]

end DatumSync.Mcp
