import DatumSync.Mcp.Tools
import DatumSync.Proxy.Confinement

/-!
# The record of a proxied call

`proxy_request` from its call to its end: the requests it sends, the calls of `_audit_log` it
makes, and the MCP result or the exception.  The record is written after the last hop, so a call
that ends in an exception has none, although its first request may have reached the upstream.
-/

namespace DatumSync.Proxy

open Python

/-- The arguments of `_audit_log` but the trace. -/
structure Attempt where
  principal : Principal
  connectionName : Str
  method : Str
  path : Str
  upstreamStatus : ℕ

structure ProxyLogRow where
  agentId : Option ℤ
  agentName : Str
  accountName : Str
  connectionName : Str
  method : Str
  path : Str
  upstreamStatus : ℕ

/-- The row `_audit_log` inserts into `proxy_log`; a failing insert is ignored. -/
def Attempt.proxyLogRow (attempt : Attempt) : ProxyLogRow where
  agentId := attempt.principal.agentId
  agentName := attempt.principal.agentName.getD []
  accountName := attempt.principal.name
  connectionName := attempt.connectionName
  method := attempt.method
  path := attempt.path.take 2000
  upstreamStatus := attempt.upstreamStatus

/-- The entry `_audit_log` hands to `audit.write`. -/
def Attempt.entry (attempt : Attempt) : Audit.Entry where
  via := str "mcp"
  verb := str "proxy.request"
  targetKind := some (str "connection")
  target := .text ((attempt.connectionName ++ [cp ':'] ++ attempt.method ++ [cp ':'] ++
    attempt.path).take 2000)
  outcome := if attempt.upstreamStatus < 400 then .ok else .error
  errorCode := if 400 ≤ attempt.upstreamStatus then some attempt.upstreamStatus else none
  detail := some [(str "upstream_status", .int attempt.upstreamStatus)]

def maxResponseBytes : ℕ := 1 * 1024 * 1024

def textTypes : List Str :=
  [str "text/", str "application/json", str "application/xml", str "application/javascript"]

/-- Step 9: the MCP result. -/
def mcpResult (response : Response) : Json :=
  let isText := textTypes.any fun t ↦ decide (t <:+: response.contentType)
  let truncated := decide (maxResponseBytes < response.content.length)
  let text :=
    if isText then decodeUtf8 (response.content.take maxResponseBytes)
    else str "[binary response: " ++ response.contentType ++ str ", " ++
      decimal response.content.length ++ str " bytes]"
  .obj [(str "content", .arr [.obj [(str "type", .text (str "text")), (str "text", .text text)]]),
    (str "isError", .bool (decide (400 ≤ response.status))),
    (str "_meta", .obj [(str "upstream_status", .int response.status),
      (str "upstream_content_type", .text response.contentType),
      (str "truncated", .bool truncated)])]

/-- What a call of `proxy_request` does. -/
structure Run where
  sent : List Request
  attempts : List Attempt
  outcome : Except Exc Json

variable (outside : Outside)

/-- `proxy_request` with its steps 8 and 9. -/
def run (call : Call) : Run :=
  match proxyRequest outside call with
  | (sent, .error e) => ⟨sent, [], .error e⟩
  | (sent, .ok response) =>
    ⟨sent, [{
      principal := call.principal
      connectionName := call.connectionName
      method := asciiUpper call.method
      path := slashed call.path
      upstreamStatus := response.status }], .ok (mcpResult response)⟩

/-- The run as the MCP endpoint sees it. -/
def Run.toProxyRun (r : Run) : Mcp.ProxyRun := ⟨r.attempts.map Attempt.entry, r.outcome⟩

/-- The upstream answers of a chain of hops: with `left` redirects to follow, the request comes to
a response that is no redirect. -/
inductive Answered (headers : Dict) : (left hop : ℕ) → Request → Response → Prop where
  | final {left hop : ℕ} {request : Request} {response : Response}
      (hanswer : outside.answer hop request = .ok response)
      (hfinal : response.isRedirect = false) : Answered headers left hop request response
  | redirect {left hop : ℕ} {request : Request} {url : Str} {response : Response}
      (hfollowed : followed outside hop request = some url)
      (hrest : Answered headers left (hop + 1) (redirectRequest headers url) response) :
      Answered headers (left + 1) hop request response

variable {outside}

/-- One hop ends the exchange with its response, or leads on to the next one. -/
theorem exchange_succ_ok_iff {headers : Dict} {fuel hop : ℕ} {request : Request}
    {response : Response} :
    (exchange outside headers (fuel + 1) hop request).2 = .ok response ↔
      outside.answer hop request = .ok response ∧ response.isRedirect = false ∨
        ∃ url, followed outside hop request = some url ∧
          (exchange outside headers fuel (hop + 1) (redirectRequest headers url)).2 =
            .ok response := by
  rw [exchange, followed]
  cases outside.answer hop request with
  | error e => simp
  | ok answer =>
    dsimp only
    cases hredirect : answer.isRedirect with
    | false =>
      simp only [Bool.not_false, if_true, Except.ok.injEq, Bool.false_eq_true, false_and, if_false,
        reduceCtorEq, exists_false, or_false]
      exact ⟨fun h ↦ ⟨h, h ▸ hredirect⟩, And.left⟩
    | true =>
      have hnot : ¬ (answer = response ∧ response.isRedirect = false) := by
        rintro ⟨rfl, hfinal⟩
        rw [hredirect] at hfinal
        cases hfinal
      by_cases hlocation : answer.location.getD [] = []
      · simp [hlocation, hnot]
      · cases hurl : redirectUrl outside request (answer.location.getD []) with
        | error e => simp [hlocation, hnot, Except.toOption]
        | ok url => simp [hlocation, hnot, Except.toOption]

/-- The exchange ends in a response exactly when the upstream answers come to one. -/
theorem exchange_ok_iff {headers : Dict} {left hop : ℕ} {request : Request} {response : Response} :
    (exchange outside headers (left + 1) hop request).2 = .ok response ↔
      Answered outside headers left hop request response := by
  induction left generalizing hop request with
  | zero =>
    rw [exchange_succ_ok_iff]
    constructor
    · rintro (⟨hanswer, hfinal⟩ | ⟨url, -, hrest⟩)
      · exact .final hanswer hfinal
      · cases hrest
    · intro h
      cases h with
      | final hanswer hfinal => exact .inl ⟨hanswer, hfinal⟩
  | succ left ih =>
    rw [exchange_succ_ok_iff]
    constructor
    · rintro (⟨hanswer, hfinal⟩ | ⟨url, hfollowed, hrest⟩)
      · exact .final hanswer hfinal
      · exact .redirect hfollowed (ih.mp hrest)
    · intro h
      cases h with
      | final hanswer hfinal => exact .inl ⟨hanswer, hfinal⟩
      | redirect hfollowed hrest => exact .inr ⟨_, hfollowed, ih.mpr hrest⟩

/-- A call makes one record or none, and the one it makes is of the response it answers with. -/
theorem run_attempts_length (call : Call) :
    (run outside call).attempts.length = 1 ↔
      ∃ response, (proxyRequest outside call).2 = .ok response := by
  unfold run
  split
  · next sent e h => simp [h]
  · next sent response h => simp [h]

theorem run_sent (call : Call) : (run outside call).sent = (proxyRequest outside call).1 := by
  unfold run
  split <;> next h => rw [h]

/-- A call that reaches the upstream is recorded, once, exactly when the upstream's answers come to
a response that is no redirect within the redirects the proxy follows. -/
theorem run_recorded_iff {call : Call} {first : Request} {later : List Request}
    (hsent : (run outside call).sent = first :: later) :
    (run outside call).attempts.length = 1 ↔
      ∃ response, Answered outside first.headers maxRedirects 0 first response := by
  rw [run_sent, proxyRequest] at hsent
  rw [run_attempts_length, proxyRequest]
  cases hprepare : prepare outside call with
  | error e =>
    rw [hprepare] at hsent
    cases hsent
  | ok request =>
    rw [hprepare] at hsent
    dsimp only at hsent ⊢
    rw [exchange_sent] at hsent
    obtain ⟨rfl, -⟩ := List.cons.inj hsent
    exact exists_congr fun response ↦ exchange_ok_iff

theorem run_recorded_iff_bearer :
    ∃ first later, (run (redirectingApi bearerRule) agentCall).sent = first :: later ∧
      ((run (redirectingApi bearerRule) agentCall).attempts.length = 1 ↔
        ∃ response, Answered (redirectingApi bearerRule) first.headers maxRedirects 0 first
          response) :=
  ⟨_, _, rfl, run_recorded_iff (by rfl)⟩

/-- The API of `redirectingApi` behind a connection that breaks on the second hop. -/
def breakingApi : Outside :=
  { redirectingApi bearerRule with
    answer := fun hop request ↦
      if hop = 0 then (redirectingApi bearerRule).answer hop request
      else .error (.raised .otherError (str "ConnectError")) }

/-- A transport error after the first hop: the credential has left, and no record is made. -/
theorem breakingApi_not_recorded :
    (run breakingApi agentCall).sent.length = 2 ∧
      (run breakingApi agentCall).attempts.length = 0 := by
  decide +kernel

end DatumSync.Proxy
