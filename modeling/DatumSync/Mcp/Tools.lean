import DatumSync.Audit

/-!
# The methods of the MCP endpoint

The handlers as the endpoint dispatches them.  What they call outside this file (the proxy, the
vault, the catalogue query, the job runner) is a `Backend`: each operation may return or raise
anything, and the proxy may write audit rows of its own before it does.
-/

namespace DatumSync.Mcp

open Python

def parseError : ℤ := -32700
def invalidRequest : ℤ := -32600
def methodNotFound : ℤ := -32601
def invalidParams : ℤ := -32602
def internalError : ℤ := -32603

def protocolVersion : Str := str "2025-06-18"

inductive Method where
  | initializeCall
  | ping
  | toolsList
  | toolsCall
  deriving DecidableEq

def Method.name : Method → Str
  | initializeCall => str "initialize"
  | ping => str "ping"
  | toolsList => str "tools/list"
  | toolsCall => str "tools/call"

def methods : List Method := [.initializeCall, .ping, .toolsList, .toolsCall]

/-- `METHODS.get(method)` for a method that can be hashed. -/
def Method.ofJson (method : Json) : Option Method := methods.find? fun m ↦ method.eqText m.name

/-- What a call of `proxy.proxy_request` does: the audit entries it writes, and its end. -/
structure ProxyRun where
  entries : List Audit.Entry
  outcome : Except Exc Json

/-- The operations behind the tools. -/
structure Backend where
  proxyRequest (connection method : Str) (path headers body queryParams : Json) : ProxyRun
  vaultRead (path : Str) : Except Exc Json
  vaultWrite (path content : Str) : Except Exc Json
  vaultList (path : Str) : Except Exc Json
  /-- `catalogue` on an acquired connection: each tool name with its `_tool_json`. -/
  catalogue : Except Exc (List (Str × Json))
  /-- `execute.run_sync` for the workspace of a tool name, with the submitted parameters. -/
  runSync (tool : Str) (submitted : List (Str × Str)) : Except Exc Json
  /-- `_content_blocks` of the row `run_sync` returned. -/
  contentBlocks (row : Json) : Except Exc Json

/-- How Python writes values, and how deep the response encoder may nest. -/
structure Rendering where
  strOf : Json → Str
  reprOf : Json → Str
  dumps : Json → Str
  depthLimit : ℕ

/-- `{"content": [{"type": "text", "text": ...}], "isError": True}` for an `ApiError`. -/
def toolError (code message : Str) : Json :=
  .obj [(str "content", .arr [.obj [(str "type", .text (str "text")),
      (str "text", .text (code ++ str ": " ++ message))]]),
    (str "isError", .bool true)]

/-- `except ApiError`: the error becomes a tool result. -/
def catchApiError (outcome : Except Exc Json) : Except Exc Json :=
  match outcome with
  | .error (.api _ code message _) => .ok (toolError code message)
  | other => other

def typed (type : String) (description : String) : Json :=
  .obj [(str "type", .text (str type)), (str "description", .text (str description))]

def objectSchema (properties : List (Str × Json)) (required : List String) : Json :=
  .obj [(str "type", .text (str "object")), (str "properties", .obj properties),
    (str "required", .arr (required.map fun name ↦ .text (str name)))]

def toolSchema (name title description : String) (inputSchema : Json) : Json :=
  .obj [(str "name", .text (str name)), (str "title", .text (str title)),
    (str "description", .text (str description)), (str "inputSchema", inputSchema)]

def proxyTool : Json :=
  toolSchema "proxy_request" "Credential Proxy"
    ("Forward an HTTP request through a named connection. " ++
      "The connection's credentials are injected server-side; the caller never sees the key.")
    (objectSchema
      [(str "connection", typed "string" "Connection name from the connection store"),
        (str "method", .obj [(str "type", .text (str "string")),
          (str "enum", .arr (["GET", "POST", "PUT", "PATCH", "DELETE", "HEAD"].map
            fun name ↦ .text (str name)))]),
        (str "path", typed "string" "Path appended to the connection's base_url"),
        (str "headers", typed "object" "Additional request headers"),
        (str "body", .obj [(str "description",
          .text (str "Request body (JSON-serializable)"))]),
        (str "query_params", typed "object" "URL query parameters")]
      ["connection", "method", "path"])

def vaultTools : List Json :=
  [toolSchema "vault_read" "Vault Read"
      ("Read a file from the vault. The path is relative to the vault root " ++
        "and must be within the caller's read scope.")
      (objectSchema [(str "path", typed "string" "Vault-relative path, e.g. dev/config/foo.md")]
        ["path"]),
    toolSchema "vault_write" "Vault Write"
      ("Write a file to the vault. Creates parent directories as needed. " ++
        "The path must be within the caller's write scope.")
      (objectSchema [(str "path", typed "string" "Vault-relative path, e.g. dev/notes/idea.md"),
          (str "content", typed "string" "File content (UTF-8 text)")]
        ["path", "content"]),
    toolSchema "vault_list" "Vault List"
      ("List a directory in the vault. Only entries within the caller's " ++
        "read scope are shown.")
      (objectSchema [(str "path", typed "string"
          "Vault-relative directory path, e.g. dev/config")]
        ["path"])]

/-- `_initialize`: the requested version is echoed only where it is the one spoken. -/
def initializeCall (params : List (Str × Json)) : Json :=
  let requested := Json.fieldD params (str "protocolVersion") .null
  .obj [(str "protocolVersion",
      if requested.eqText protocolVersion then requested else .text protocolVersion),
    (str "capabilities", .obj [(str "tools", .obj [(str "listChanged", .bool false)])]),
    (str "serverInfo", .obj [(str "name", .text (str "datum-sync")),
      (str "version", .text (str "0.1.0"))])]

def toolsList (backend : Backend) (principal : Principal) : Except Exc Json :=
  match backend.catalogue with
  | .error e => .error e
  | .ok found =>
    let tools := found.map Prod.snd ++ [proxyTool]
    .ok (.obj [(str "tools",
      .arr (if principal.hasVaultScope then tools ++ vaultTools else tools))])

/-- `_proxy_call`: the end of the call, and what the proxy left in the audit log. -/
def proxyCall (backend : Backend) (accepts : Audit.Row → Bool) (trace : Audit.Trace)
    (principal : Principal) (args : List (Str × Json)) (log : Audit.Log) :
    Except Exc Json × Audit.Log :=
  match Json.fieldD args (str "connection") .null with
  | .text connection =>
    match Json.fieldD args (str "method") .null with
    | .text method =>
      let run := backend.proxyRequest connection method
        (Json.fieldD args (str "path") (.text [])) (Json.fieldD args (str "headers") .null)
        (Json.fieldD args (str "body") .null) (Json.fieldD args (str "query_params") .null)
      (catchApiError run.outcome,
        Audit.writeAll accepts trace principal run.entries log)
    | _ => (.error (.rpc invalidParams (str "method is required") none), log)
  | _ => (.error (.rpc invalidParams (str "connection is required") none), log)

def vaultCall (backend : Backend) (rendering : Rendering) (name : Str)
    (args : List (Str × Json)) : Except Exc Json :=
  match Json.fieldD args (str "path") .null with
  | .text path =>
    if name = str "vault_read" then catchApiError (backend.vaultRead path)
    else if name = str "vault_write" then
      match Json.fieldD args (str "content") .null with
      | .text content => catchApiError (backend.vaultWrite path content)
      | _ => .error (.rpc invalidParams (str "content is required") none)
    else if name = str "vault_list" then catchApiError (backend.vaultList path)
    else .error (.rpc invalidParams
      (str "unknown vault tool " ++ rendering.reprOf (.text name)) none)
  | _ => .error (.rpc invalidParams (str "path is required") none)

def asParam (rendering : Rendering) (value : Json) : Str :=
  match value with
  | .bool b => if b then str "true" else str "false"
  | .int _ | .float _ | .text _ => rendering.strOf value
  | _ => rendering.dumps value

/-- The part of `_tools_call` after the static tools: a workspace of the catalogue. -/
def workspaceCall (backend : Backend) (rendering : Rendering) (name : Str)
    (args : List (Str × Json)) : Except Exc Json :=
  match backend.catalogue with
  | .error e => .error e
  | .ok found =>
    if found.lookup name = none then
      .error (.rpc invalidParams (str "unknown tool " ++ rendering.reprOf (.text name)) none)
    else match backend.runSync name (args.map fun arg ↦ (arg.1, asParam rendering arg.2)) with
      | .error (.api _ code message _) => .ok (toolError code message)
      | .error e => .error e
      | .ok row =>
        match backend.contentBlocks row with
        | .error e => .error e
        | .ok blocks => .ok (.obj [(str "content", blocks), (str "isError", .bool false)])

end DatumSync.Mcp
