import DatumSync.Mcp.Containment

/-!
# Which MCP requests leave a trace

Once the handler of a request has been invoked, what the audit log shows of it comes from two
places: the rows the proxy writes while it handles the call, and the row `_log_call` writes after
it.  `_log_call` reaches `audit.write`, which never loses a row silently, only when the handler
ended in a result or an `RpcError`, the target can be classified, and the connection and the
insert into `mcp_call_log` succeed.
-/

namespace DatumSync.Mcp

open Python

/-- A message whose handler the endpoint invokes. -/
structure Invoked (body : List (Str × Json)) (known : Method) (params : List (Str × Json)) :
    Prop where
  version : Json.fieldD body (str "jsonrpc") .null = .text (str "2.0")
  answered : Json.fieldD body (str "id") .null ≠ .null
  paramsDict : (Json.fieldD body (str "params") .null).orElse (.obj []) = .obj params
  methodKnown : Method.ofJson (Json.fieldD body (str "method") .null) = some known
  target : TargetComputable (loggedName known params) params

theorem hashable_of_known {method : Json} {known : Method}
    (h : Method.ofJson method = some known) : method.hashable = true := by
  have hname : method.eqText known.name = true :=
    List.find?_some (p := fun m : Method ↦ method.eqText m.name) h
  rw [Json.eqText_iff] at hname
  rw [hname]
  rfl

/-- An invoked message is dispatched with a target. -/
theorem endpoint_of_invoked {env : Env} {principal : Principal} {trace : Audit.Trace}
    {body params : List (Str × Json)} {known : Method} {target : Json} (logs : Logs)
    (h : Invoked body known params)
    (htarget : callTarget env.rendering.strOf known.name (loggedName known params) params =
      .ok target) :
    endpoint env principal trace (.ok (.obj body)) logs =
      dispatch env principal trace (Json.fieldD body (str "id") .null) known params
        (loggedName known params) target logs := by
  have hhash := hashable_of_known h.methodKnown
  rw [endpoint, h.version, if_pos (by decide), message]
  dsimp only
  rw [h.paramsDict]
  dsimp only
  rw [if_neg h.answered, if_neg (by simp [hhash]), h.methodKnown]
  dsimp only
  rw [show (if known = .toolsCall then Json.fieldD params (str "name") .null else .null) =
    loggedName known params from rfl, htarget]

/-- The audit entries a proxy call writes. -/
def proxyEntries (backend : Backend) (args : List (Str × Json)) : List Audit.Entry :=
  match Json.fieldD args (str "connection") .null with
  | .text connection =>
    match Json.fieldD args (str "method") .null with
    | .text method =>
      (backend.proxyRequest connection method (Json.fieldD args (str "path") (.text []))
        (Json.fieldD args (str "headers") .null) (Json.fieldD args (str "body") .null)
        (Json.fieldD args (str "query_params") .null)).entries
    | _ => []
  | _ => []

/-- The audit entries that are written while the handler runs. -/
def handlerEntries (backend : Backend) (known : Method) (params : List (Str × Json)) :
    List Audit.Entry :=
  if known = .toolsCall then
    match Json.fieldD params (str "name") .null with
    | .text name =>
      match (Json.fieldD params (str "arguments") .null).orElse (.obj []) with
      | .obj args => if name = proxyToolName then proxyEntries backend args else []
      | _ => []
    | _ => []
  else []

theorem proxyCall_log {backend : Backend} {accepts : Audit.Row → Bool} {principal : Principal}
    {trace : Audit.Trace} {args : List (Str × Json)} {log : Audit.Log} :
    (proxyCall backend accepts trace principal args log).2 =
      Audit.writeAll accepts trace principal (proxyEntries backend args) log := by
  unfold proxyCall proxyEntries
  cases Json.fieldD args (str "connection") .null with
  | text connection => cases Json.fieldD args (str "method") .null <;> rfl
  | _ => rfl

/-- A handler leaves the audit log as it was, up to the proxy's entries. -/
theorem handle_log {env : Env} {principal : Principal} {trace : Audit.Trace} {known : Method}
    {params : List (Str × Json)} {log : Audit.Log} :
    (handle env principal trace known params log).2 =
      Audit.writeAll env.database.insertAudit trace principal
        (handlerEntries env.backend known params) log := by
  cases known with
  | toolsCall =>
    unfold handle toolsCall handlerEntries
    rw [if_pos rfl]
    dsimp only
    cases Json.fieldD params (str "name") .null with
    | text name =>
      cases (Json.fieldD params (str "arguments") .null).orElse (.obj []) with
      | obj args =>
        dsimp only
        by_cases hproxy : name = proxyToolName
        · rw [if_pos hproxy, if_pos hproxy, proxyCall_log]
        · rw [if_neg hproxy, if_neg hproxy]
          split <;> rfl
      | _ => rfl
    | _ => rfl
  | _ => rfl

/-- `_log_call` reaches `audit.write`. -/
def Recordable (env : Env) (principal : Principal) (trace : Audit.Trace) (method : Str)
    (toolName target : Json) (outcome : Audit.Outcome) (errorCode : Option ℤ) : Prop :=
  env.database.acquire = true ∧ ∃ governance, isGovernance target = .ok governance ∧
    env.database.insertCall
      (callRow env principal trace method toolName target governance outcome errorCode) = true

theorem logCall_extends (env : Env) (principal : Principal) (trace : Audit.Trace) (method : Str)
    (toolName target : Json) (outcome : Audit.Outcome) (errorCode : Option ℤ) (logs : Logs) :
    Audit.Extends logs.audit
      (logCall env principal trace method toolName target outcome errorCode logs).audit := by
  unfold logCall
  dsimp only
  split
  · split
    · exact Audit.Extends.refl logs.audit
    · split
      · exact Audit.write_extends _ _ _ _ _
      · exact Audit.Extends.refl logs.audit
  · exact Audit.Extends.refl logs.audit

theorem logCall_visible_iff {env : Env} {principal : Principal} {trace : Audit.Trace}
    {method : Str} {toolName target : Json} {outcome : Audit.Outcome} {errorCode : Option ℤ}
    {logs : Logs} (hfresh : Audit.Fresh trace logs.audit) :
    Audit.Visible trace logs.audit
        (logCall env principal trace method toolName target outcome errorCode logs).audit ↔
      Recordable env principal trace method toolName target outcome errorCode := by
  unfold logCall Recordable
  dsimp only
  split
  · next hacquire =>
    rw [and_iff_right hacquire]
    cases hgov : isGovernance target with
    | error e =>
      exact iff_of_false (Audit.not_visible_self hfresh) fun ⟨_, h, _⟩ ↦ nomatch h
    | ok governance =>
      dsimp only
      split
      · next hinsert =>
        exact iff_of_true (Audit.write_visible _ _ _ _ _) ⟨governance, rfl, hinsert⟩
      · next hinsert =>
        refine iff_of_false (Audit.not_visible_self hfresh) fun ⟨g, hg, hrow⟩ ↦ hinsert ?_
        rw [Except.ok.inj hg]
        exact hrow
  · next hacquire => exact iff_of_false (Audit.not_visible_self hfresh) fun h ↦ hacquire h.1

/-- The handler's end is one the endpoint logs, and the log call reaches `audit.write`. -/
def Logged (env : Env) (principal : Principal) (trace : Audit.Trace) (method : Str)
    (toolName target : Json) (outcome : Except Exc Json) : Prop :=
  match outcome with
  | .ok _ => Recordable env principal trace method toolName target .ok none
  | .error (.rpc code _ _) =>
    Recordable env principal trace method toolName target .error (some code)
  | .error _ => False

/-- A dispatched request shows in the audit log exactly when the proxy wrote an entry for it or
its own log call reached `audit.write`. -/
theorem dispatch_visible_iff {env : Env} {principal : Principal} {trace : Audit.Trace}
    {requestId : Json} {known : Method} {params : List (Str × Json)} {toolName target : Json}
    {logs : Logs} (hfresh : Audit.Fresh trace logs.audit) :
    Audit.Visible trace logs.audit
        (dispatch env principal trace requestId known params toolName target logs).2.audit ↔
      handlerEntries env.backend known params ≠ [] ∨
        Logged env principal trace known.name toolName target
          (handle env principal trace known params logs.audit).1 := by
  have hlog := @handle_log env principal trace known params logs.audit
  rw [dispatch]
  generalize handle env principal trace known params logs.audit = run at hlog ⊢
  obtain ⟨outcome, log⟩ := run
  dsimp only at hlog ⊢
  subst hlog
  by_cases hentries : handlerEntries env.backend known params = []
  · rw [or_iff_right (not_not.mpr hentries), hentries]
    cases outcome with
    | ok result => exact logCall_visible_iff hfresh
    | error e =>
      cases e with
      | rpc code message data => exact logCall_visible_iff hfresh
      | api => exact iff_of_false (Audit.not_visible_self hfresh) id
      | raised => exact iff_of_false (Audit.not_visible_self hfresh) id
  · refine iff_of_true ?_ (.inl hentries)
    have hvisible := (@Audit.writeAll_visible_iff env.database.insertAudit trace principal
      (handlerEntries env.backend known params) logs.audit hfresh).mpr hentries
    cases outcome with
    | ok result => exact hvisible.extend (logCall_extends _ _ _ _ _ _ _ _ _)
    | error e =>
      cases e with
      | rpc code message data => exact hvisible.extend (logCall_extends _ _ _ _ _ _ _ _ _)
      | api => exact hvisible
      | raised => exact hvisible

end DatumSync.Mcp
