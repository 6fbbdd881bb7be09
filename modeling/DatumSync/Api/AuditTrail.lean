import DatumSync.Mcp.Recording

/-!
# The audit trail of a request

`trace_and_audit` is the outermost middleware: it writes one row for every authenticated write
request and counts the row when it gets no connection, but leaves paths under `/mcp` to the
endpoint.  The endpoint's `_log_call` swallows every failure without counting it and is not
reached at all when the handler raises something that is no `RpcError`.
-/

namespace DatumSync.Api

open Python

/-- How the database answers while the middleware records a request. -/
structure Pool where
  acquire : Bool
  accepts : Audit.Row → Bool

/-- What the middleware reads of a request; the principal is the one `authenticate` attached. -/
structure Request where
  path : Str
  method : Str
  authorization : Option Str
  principal : Option Principal
  durationMs : ℤ

def auditReadMethods : List Str := [str "GET", str "HEAD", str "OPTIONS"]

def auditSelfLogging : Str := str "/mcp"

def via (path : Str) : Str :=
  if startsWith path (str "/ui") then str "ui"
  else if startsWith path (str "/oauth") || startsWith path (str "/.well-known") then str "oauth"
  else str "rest"

def authScheme (authorization : Option Str) : Str :=
  match authorization with
  | none => str "none"
  | some header =>
    if header = [] then str "none"
    else
      let scheme := asciiLower (header.takeWhile (· != cp ' '))
      if scheme = str "bearer" ∨ scheme = str "basic" then scheme else str "other"

def requestEntry (request : Request) (status : ℕ) : Audit.Entry where
  via := via request.path
  verb := via request.path ++ str "." ++ asciiLower request.method
  targetKind := some (str "path")
  target := .text request.path
  outcome := if status < 400 then .ok else .error
  errorCode := if status < 400 then none else some status
  durationMs := some request.durationMs

def refusedEntry (request : Request) (status : ℕ) : Audit.Entry where
  via := via request.path
  verb := via request.path ++ str "." ++ asciiLower request.method
  targetKind := some (str "path")
  target := .text request.path
  outcome := .error
  errorCode := some status
  detail := some [(str "auth", .text (authScheme request.authorization))]

def auditRow (pool : Pool) (trace : Audit.Trace) (request : Request) (status : ℕ)
    (log : Audit.Log) : Audit.Log :=
  if startsWith request.path auditSelfLogging then log
  else match request.principal with
    | none =>
      if status = 401 then
        if pool.acquire then
          Audit.writeAnon pool.accepts trace (refusedEntry request status) log
        else Audit.drop log
      else log
    | some principal =>
      if auditReadMethods.contains request.method then log
      else if pool.acquire then
        Audit.write pool.accepts trace principal (requestEntry request status) log
      else Audit.drop log

/-- `trace_and_audit` around the rest of the application, which answers with a status or raises
and may write audit rows of its own. -/
def traceAndAudit (pool : Pool) (trace : Audit.Trace) (request : Request)
    (callNext : Audit.Log → Except Exc ℕ × Audit.Log) (log : Audit.Log) :
    Except Exc ℕ × Audit.Log :=
  match callNext log with
  | (.error e, log) => (.error e, auditRow pool trace request 500 log)
  | (.ok status, log) => (.ok status, auditRow pool trace request status log)

/-- An authenticated write request whose path is not the endpoint's leaves a row or a count. -/
theorem auditRow_visible {pool : Pool} {trace : Audit.Trace} {request : Request}
    {principal : Principal} {status : ℕ} (log : Audit.Log)
    (hpath : startsWith request.path auditSelfLogging = false)
    (hprincipal : request.principal = some principal)
    (hwrite : request.method ∉ auditReadMethods) :
    Audit.Visible trace log (auditRow pool trace request status log) := by
  have hmethod : ¬ auditReadMethods.contains request.method = true := by simpa using hwrite
  rw [auditRow, if_neg (by simp [hpath]), hprincipal]
  dsimp only
  rw [if_neg hmethod]
  split
  · exact Audit.write_visible pool.accepts trace principal _ log
  · exact Audit.drop_visible trace log

theorem auditRow_self_logging {pool : Pool} {trace : Audit.Trace} {request : Request}
    {status : ℕ} (log : Audit.Log) (hpath : startsWith request.path auditSelfLogging = true) :
    auditRow pool trace request status log = log := if_pos hpath

theorem traceAndAudit_self_logging {pool : Pool} {trace : Audit.Trace} {request : Request}
    {callNext : Audit.Log → Except Exc ℕ × Audit.Log} (log : Audit.Log)
    (hpath : startsWith request.path auditSelfLogging = true) :
    (traceAndAudit pool trace request callNext log).2 = (callNext log).2 := by
  rw [traceAndAudit]
  split
  · next e after hcall => rw [hcall, auditRow_self_logging after hpath]
  · next status after hcall => rw [hcall, auditRow_self_logging after hpath]

/-- The rest surface: visible unless the path is left to the endpoint and nothing else wrote. -/
theorem traceAndAudit_visible_iff {pool : Pool} {trace : Audit.Trace} {request : Request}
    {principal : Principal} {callNext : Audit.Log → Except Exc ℕ × Audit.Log} {log : Audit.Log}
    (hextends : Audit.Extends log (callNext log).2)
    (hprincipal : request.principal = some principal)
    (hwrite : request.method ∉ auditReadMethods) :
    Audit.Visible trace log (traceAndAudit pool trace request callNext log).2 ↔
      startsWith request.path auditSelfLogging = false ∨
        Audit.Visible trace log (callNext log).2 := by
  by_cases hpath : startsWith request.path auditSelfLogging = true
  · rw [traceAndAudit_self_logging log hpath, hpath]
    exact (or_iff_right Bool.true_eq_false_eq_False).symm
  · rw [Bool.not_eq_true] at hpath
    refine iff_of_true ?_ (.inl hpath)
    rw [traceAndAudit]
    split
    · next e after hcall =>
      rw [hcall] at hextends
      exact .weaken hextends (auditRow_visible after hpath hprincipal hwrite)
    · next status after hcall =>
      rw [hcall] at hextends
      exact .weaken hextends (auditRow_visible after hpath hprincipal hwrite)

def statusOf : Mcp.Response → ℕ
  | .rpc _ => 200
  | .accepted => 202

/-- A message posted to the endpoint, behind the middleware. -/
def mcpRequest (pool : Pool) (env : Mcp.Env) (principal : Principal) (trace : Audit.Trace)
    (request : Request) (body : List (Str × Json)) (logs : Mcp.Logs) :
    Except Exc ℕ × Audit.Log :=
  traceAndAudit pool trace request (fun log ↦
    let run := Mcp.endpoint env principal trace (.ok (.obj body)) { logs with audit := log }
    (run.1.map statusOf, run.2.audit)) logs.audit

/-- The endpoint's surface: visible exactly through the proxy's rows and a completed log call. -/
theorem mcpRequest_visible_iff {pool : Pool} {env : Mcp.Env} {principal : Principal}
    {trace : Audit.Trace} {request : Request} {body params : List (Str × Json)}
    {known : Mcp.Method} {target : Json} {logs : Mcp.Logs} (hpath : request.path = str "/mcp")
    (hfresh : Audit.Fresh trace logs.audit) (hinvoked : Mcp.Invoked body known params)
    (htarget : Mcp.callTarget env.rendering.strOf known.name (Mcp.loggedName known params) params =
      .ok target) :
    Audit.Visible trace logs.audit (mcpRequest pool env principal trace request body logs).2 ↔
      Mcp.handlerEntries env.backend known params ≠ [] ∨
        Mcp.Logged env principal trace known.name (Mcp.loggedName known params) target
          (Mcp.handle env principal trace known params logs.audit).1 := by
  have hself : startsWith request.path auditSelfLogging = true := by
    rw [hpath]
    decide
  rw [mcpRequest, traceAndAudit_self_logging logs.audit hself]
  dsimp only
  rw [Mcp.endpoint_of_invoked _ hinvoked htarget]
  exact Mcp.dispatch_visible_iff hfresh

/-- When an answered request leaves no trace at all, on either surface. -/
theorem audit_visible_iff (trace : Audit.Trace) :
    (∀ pool request principal callNext log, request.principal = some principal →
      request.method ∉ auditReadMethods → Audit.Extends log (callNext log).2 →
      (Audit.Visible trace log (traceAndAudit pool trace request callNext log).2 ↔
        startsWith request.path auditSelfLogging = false ∨
          Audit.Visible trace log (callNext log).2)) ∧
    ∀ pool env principal request body known params target logs, request.path = str "/mcp" →
      Audit.Fresh trace logs.audit → Mcp.Invoked body known params →
      Mcp.callTarget env.rendering.strOf known.name (Mcp.loggedName known params) params =
        .ok target →
      (Audit.Visible trace logs.audit (mcpRequest pool env principal trace request body logs).2 ↔
        Mcp.handlerEntries env.backend known params ≠ [] ∨
          Mcp.Logged env principal trace known.name (Mcp.loggedName known params) target
            (Mcp.handle env principal trace known params logs.audit).1) :=
  ⟨fun _ _ _ _ _ hprincipal hwrite hextends ↦
      traceAndAudit_visible_iff hextends hprincipal hwrite,
    fun _ _ _ _ _ _ _ _ _ hpath hfresh hinvoked htarget ↦
      mcpRequest_visible_iff hpath hfresh hinvoked htarget⟩

/-- `POST /mcp` by the account that may do everything. -/
def mcpPost : Request := ⟨str "/mcp", str "POST", none, some Mcp.openPrincipal, 1⟩

/-- `POST /rest/v1/schedules` by the same account. -/
def schedulesPost : Request :=
  ⟨str "/rest/v1/schedules", str "POST", none, some Mcp.openPrincipal, 1⟩

/-- Every connection and every insert succeeds. -/
def openPool : Pool := ⟨true, fun _ ↦ true⟩

/-- The message that lists a vault directory. -/
def listMessage (path : Str) : List (Str × Json) :=
  Mcp.vaultMessage "vault_list" [(str "path", .text path)]

def listParams (path : Str) : List (Str × Json) :=
  [(str "name", .text (str "vault_list")), (str "arguments", .obj [(str "path", .text path)])]

theorem invoked_listMessage (path : Str) :
    Mcp.Invoked (listMessage path) .toolsCall (listParams path) where
  version := rfl
  answered := nofun
  paramsDict := rfl
  methodKnown := show Mcp.Method.ofJson (.text (str "tools/call")) = some .toolsCall by decide
  target := .inr ⟨rfl, fun _ ↦ rfl⟩

theorem audit_visible_iff_posts :
    (Audit.Visible ⟨str "t", none⟩ ⟨[], 0⟩ (traceAndAudit openPool ⟨str "t", none⟩ schedulesPost
        (fun log ↦ (.ok 201, log)) ⟨[], 0⟩).2 ↔
      startsWith schedulesPost.path auditSelfLogging = false ∨
        Audit.Visible ⟨str "t", none⟩ ⟨[], 0⟩ ⟨[], 0⟩) ∧
    (Audit.Visible ⟨str "t", none⟩ Mcp.emptyLogs.audit (mcpRequest openPool Mcp.openEnv
        Mcp.openPrincipal ⟨str "t", none⟩ mcpPost (listMessage (str "dev")) Mcp.emptyLogs).2 ↔
      Mcp.handlerEntries Mcp.openEnv.backend .toolsCall (listParams (str "dev")) ≠ [] ∨
        Mcp.Logged Mcp.openEnv Mcp.openPrincipal ⟨str "t", none⟩ Mcp.Method.toolsCall.name
          (Mcp.loggedName .toolsCall (listParams (str "dev"))) (.text (str "dev"))
          (Mcp.handle Mcp.openEnv Mcp.openPrincipal ⟨str "t", none⟩ .toolsCall
            (listParams (str "dev")) Mcp.emptyLogs.audit).1) :=
  ⟨(audit_visible_iff ⟨str "t", none⟩).1 openPool schedulesPost Mcp.openPrincipal
      (fun log ↦ (.ok 201, log)) ⟨[], 0⟩ rfl (by decide) (Audit.Extends.refl _),
    (audit_visible_iff ⟨str "t", none⟩).2 openPool Mcp.openEnv Mcp.openPrincipal mcpPost
      (listMessage (str "dev")) .toolsCall (listParams (str "dev")) (.text (str "dev"))
      Mcp.emptyLogs rfl (fun _ hrow ↦ absurd hrow List.not_mem_nil)
      (invoked_listMessage (str "dev")) rfl⟩

/-- Listing `..` invokes the handler and leaves neither a row nor a count, with the database up. -/
theorem mcpRequest_crash_not_visible :
    Mcp.Invoked (listMessage (str "..")) .toolsCall (listParams (str "..")) ∧
      ¬ Audit.Visible ⟨str "t", none⟩ Mcp.emptyLogs.audit (mcpRequest openPool Mcp.openEnv
        Mcp.openPrincipal ⟨str "t", none⟩ mcpPost (listMessage (str "..")) Mcp.emptyLogs).2 := by
  refine ⟨invoked_listMessage (str ".."), ?_⟩
  have hrows : (mcpRequest openPool Mcp.openEnv Mcp.openPrincipal ⟨str "t", none⟩ mcpPost
      (listMessage (str "..")) Mcp.emptyLogs).2.rows.isEmpty = true := by decide +kernel
  have hdropped : (mcpRequest openPool Mcp.openEnv Mcp.openPrincipal ⟨str "t", none⟩ mcpPost
      (listMessage (str "..")) Mcp.emptyLogs).2.dropped = 0 := by decide +kernel
  rintro (⟨row, hrow, _⟩ | hlt)
  · rw [List.isEmpty_iff.mp hrows] at hrow
    exact absurd hrow List.not_mem_nil
  · rw [hdropped] at hlt
    exact absurd hlt (Nat.lt_irrefl 0)

end DatumSync.Api
