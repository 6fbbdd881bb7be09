import DatumSync.Mcp.Endpoint

/-!
# What a JSON-RPC request is answered with

A request is contained when it gets an envelope with its id and exactly one of `result` and
`error`, and a `tools/call` is also recorded once.  The theorem says which requests are: the
endpoint catches `RpcError` and nothing else, and it looks the method and the target up before
the block that catches.
-/

namespace DatumSync.Mcp

open Python

/-- An answer to the request with this id. -/
def IsEnvelope (requestId content : Json) : Prop :=
  ∃ fields, content = .obj fields ∧
    Json.field fields (str "jsonrpc") = some (.text (str "2.0")) ∧
    Json.field fields (str "id") = some requestId ∧
    (Json.field fields (str "result")).isSome ≠ (Json.field fields (str "error")).isSome

/-- The request is answered, and recorded once if it is a tool call. -/
def Contained (requestId : Json) (isToolsCall : Prop) (before : Logs)
    (run : Except Exc Response × Logs) : Prop :=
  (∃ content, run.1 = .ok (.rpc content) ∧ IsEnvelope requestId content) ∧
    (isToolsCall → run.2.attempts = before.attempts + 1)

/-- The handler ended in a way the endpoint has an answer for, and the answer can be encoded. -/
def Handled (env : Env) (requestId : Json) (outcome : Except Exc Json) : Prop :=
  (∃ result, outcome = .ok result ∧
    (resultEnvelope requestId result).renders env.rendering.depthLimit = true) ∨
  ∃ code message data, outcome = .error (.rpc code message data) ∧
    (errorEnvelope requestId code message data).renders env.rendering.depthLimit = true

/-- The tool name can be looked up, and the arguments of a static tool are a dict. -/
def TargetComputable (toolName : Json) (params : List (Str × Json)) : Prop :=
  toolName = .null ∨ (toolName.hashable = true ∧
    (isVaultTool toolName = true ∨ toolName.eqText proxyToolName = true →
      ((Json.fieldD params (str "arguments") .null).orElse (.obj [])).isDict = true))

/-- The name `endpoint` reads for the log. -/
def loggedName (method : Method) (params : List (Str × Json)) : Json :=
  if method = .toolsCall then Json.fieldD params (str "name") .null else .null

/-- The requests the endpoint contains. -/
def Answerable (env : Env) (principal : Principal) (trace : Audit.Trace)
    (body : List (Str × Json)) (log : Audit.Log) : Prop :=
  let method := Json.fieldD body (str "method") .null
  let requestId := Json.fieldD body (str "id") .null
  match (Json.fieldD body (str "params") .null).orElse (.obj []) with
  | .obj params =>
    method.hashable = true ∧
      match Method.ofJson method with
      | none => (errorEnvelope requestId methodNotFound
          (str "unknown method " ++ env.rendering.reprOf method) none).renders
          env.rendering.depthLimit = true
      | some known => TargetComputable (loggedName known params) params ∧
          Handled env requestId (handle env principal trace known params log).1
  | _ => method ≠ .text (str "tools/call") ∧
      (errorEnvelope requestId invalidParams (str "params must be an object") none).renders
        env.rendering.depthLimit = true

theorem isEnvelope_result (requestId result : Json) :
    IsEnvelope requestId (resultEnvelope requestId result) :=
  ⟨_, rfl, rfl, rfl, Bool.true_eq_false_eq_False⟩

theorem isEnvelope_error (requestId : Json) (code : ℤ) (message : Str) (data : Option Json) :
    IsEnvelope requestId (errorEnvelope requestId code message data) :=
  ⟨_, rfl, rfl, rfl, Bool.false_ne_true⟩

theorem argumentsOf_isOk_iff {args : Json} :
    (∃ fields, argumentsOf args = .ok fields) ↔ args.isDict = true := by
  cases args with
  | obj fields => simp [argumentsOf, Json.isDict]
  | _ => simp [argumentsOf, Json.isDict]

/-- `_call_target` of a tool call ends exactly where the target is computable. -/
theorem exists_callTarget_iff {strOf : Json → Str} {toolName : Json}
    {params : List (Str × Json)} :
    (∃ target, callTarget strOf (str "tools/call") toolName params = .ok target) ↔
      TargetComputable toolName params := by
  unfold callTarget TargetComputable
  generalize (Json.fieldD params (str "arguments") .null).orElse (.obj []) = args
  by_cases hnull : toolName = .null
  · exact iff_of_true ⟨.null, if_pos (.inr hnull)⟩ (.inl hnull)
  have hcondition : ¬ (str "tools/call" ≠ str "tools/call" ∨ toolName = .null) :=
    fun h ↦ h.elim (fun hne ↦ hne rfl) hnull
  rw [if_neg hcondition, or_iff_right hnull]
  dsimp only
  by_cases hhash : toolName.hashable = true
  · have hhash' : ¬ (!toolName.hashable) = true := by simp [hhash]
    rw [if_neg hhash', and_iff_right hhash]
    by_cases hvault : isVaultTool toolName = true
    · rw [if_pos hvault, forall_prop_of_true (.inl hvault), ← argumentsOf_isOk_iff]
      cases argumentsOf args with
      | ok fields => simp
      | error e => simp
    · rw [if_neg hvault]
      by_cases hproxy : toolName.eqText proxyToolName = true
      · rw [if_pos hproxy, forall_prop_of_true (.inr hproxy), ← argumentsOf_isOk_iff]
        cases argumentsOf args with
        | ok fields =>
          dsimp only
          split <;> simp
        | error e => simp
      · rw [if_neg hproxy]
        exact iff_of_true ⟨toolName, rfl⟩ fun h ↦ (h.elim hvault hproxy).elim
  · have hhash' : (!toolName.hashable) = true := by simpa using hhash
    rw [if_pos hhash']
    exact iff_of_false (fun ⟨_, h⟩ ↦ nomatch h) fun h ↦ hhash h.1

/-- The methods without a target have one that is always computed. -/
theorem exists_callTarget_known {strOf : Json → Str} (known : Method)
    {params : List (Str × Json)} :
    (∃ target, callTarget strOf known.name (loggedName known params) params = .ok target) ↔
      TargetComputable (loggedName known params) params := by
  by_cases hknown : known = .toolsCall
  · subst hknown
    exact exists_callTarget_iff
  · have hname : loggedName known params = .null := if_neg hknown
    rw [hname]
    exact iff_of_true ⟨.null, if_pos (.inr rfl)⟩ (.inl rfl)

theorem respond_eq_rpc {env : Env} {content answer : Json} :
    respond env content = .ok (.rpc answer) ↔
      content.renders env.rendering.depthLimit = true ∧ answer = content := by
  unfold respond
  split
  · next h =>
    rw [Except.ok.injEq, Response.rpc.injEq, and_iff_right h]
    exact eq_comm
  · next h => exact iff_of_false nofun fun hand ↦ h hand.1

/-- An answer made of one content is an envelope exactly when it can be encoded. -/
theorem respond_isEnvelope_iff {env : Env} {requestId content : Json}
    (hcontent : IsEnvelope requestId content) :
    (∃ answer, respond env content = .ok (.rpc answer) ∧ IsEnvelope requestId answer) ↔
      content.renders env.rendering.depthLimit = true := by
  simp only [respond_eq_rpc]
  constructor
  · rintro ⟨_, ⟨hrenders, _⟩, _⟩
    exact hrenders
  · intro hrenders
    exact ⟨content, ⟨hrenders, rfl⟩, hcontent⟩

/-- From the handler on: contained exactly when the handler's end is handled. -/
theorem dispatch_contained_iff {env : Env} {principal : Principal} {trace : Audit.Trace}
    {requestId : Json} {method : Method} {params : List (Str × Json)} {toolName target : Json}
    {logs : Logs} {isToolsCall : Prop} :
    Contained requestId isToolsCall logs
        (dispatch env principal trace requestId method params toolName target logs) ↔
      Handled env requestId (handle env principal trace method params logs.audit).1 := by
  rw [dispatch]
  obtain ⟨outcome, log⟩ := handle env principal trace method params logs.audit
  dsimp only
  unfold Contained Handled
  match outcome with
  | .ok result =>
    dsimp only
    rw [respond_isEnvelope_iff (isEnvelope_result requestId result), logCall_attempts]
    simp
  | .error (.rpc code message data) =>
    dsimp only
    rw [rpcError, respond_isEnvelope_iff (isEnvelope_error requestId code message data),
      logCall_attempts]
    simp
  | .error (.api ..) => simp
  | .error (.raised ..) => simp

/-- The endpoint contains exactly the answerable requests. -/
theorem endpoint_contained_iff {env : Env} {principal : Principal} {trace : Audit.Trace}
    {body : List (Str × Json)} {logs : Logs}
    (hversion : Json.fieldD body (str "jsonrpc") .null = .text (str "2.0"))
    (hid : Json.fieldD body (str "id") .null ≠ .null) :
    Contained (Json.fieldD body (str "id") .null)
        (Json.fieldD body (str "method") .null = .text (str "tools/call")) logs
        (endpoint env principal trace (.ok (.obj body)) logs) ↔
      Answerable env principal trace body logs.audit := by
  rw [endpoint, hversion, if_pos (by decide), message, Answerable]
  dsimp only
  generalize Json.fieldD body (str "id") .null = requestId at hid ⊢
  generalize Json.fieldD body (str "method") .null = method
  generalize (Json.fieldD body (str "params") .null).orElse (.obj []) = params
  cases params with
  | obj params =>
    dsimp only
    rw [if_neg hid]
    by_cases hhash : method.hashable = true
    · rw [if_neg (by simp [hhash]), and_iff_right hhash]
      cases hknown : Method.ofJson method with
      | none =>
        dsimp only
        have hnot : method ≠ .text (str "tools/call") := by
          rintro rfl
          exact absurd hknown (by decide)
        unfold Contained
        rw [rpcError, respond_isEnvelope_iff (isEnvelope_error requestId _ _ none)]
        exact and_iff_left fun h ↦ absurd h hnot
      | some known =>
        dsimp only
        have hlogged : (if known = .toolsCall then Json.fieldD params (str "name") .null
            else .null) = loggedName known params := rfl
        rw [hlogged, ← @exists_callTarget_known env.rendering.strOf known params]
        cases callTarget env.rendering.strOf known.name (loggedName known params) params with
        | error e =>
          refine iff_of_false ?_ ?_
          · rintro ⟨⟨_, hresult, _⟩, _⟩
            cases hresult
          · rintro ⟨⟨_, htarget⟩, _⟩
            cases htarget
        | ok target =>
          dsimp only
          rw [dispatch_contained_iff, and_iff_right ⟨target, rfl⟩]
    · rw [if_pos (by simpa using hhash)]
      refine iff_of_false ?_ fun h ↦ hhash h.1
      rintro ⟨⟨_, hresult, _⟩, _⟩
      cases hresult
  | _ =>
    dsimp only
    unfold Contained
    rw [rpcError, respond_isEnvelope_iff (isEnvelope_error requestId _ _ none), and_comm]
    refine and_congr_left fun _ ↦ ⟨fun h hcall ↦ ?_, fun h hcall ↦ absurd hcall h⟩
    exact absurd (h hcall) (Nat.ne_of_lt (Nat.lt_succ_self _))

/-- A path that `normalise` refuses leaves `vault_list` as the `VaultPathError` it is, which the
endpoint does not handle. -/
theorem vaultList_refused_not_handled {env : Env} {disk : Vault.Disk} {scope : Option Vault.Scope}
    {args : List (Str × Json)} {path : Str} {e : Exc} (requestId : Json)
    (hpath : Json.fieldD args (str "path") .null = .text path)
    (h : Vault.normalise path = .error e) :
    ¬ Handled env requestId
      (vaultCall (diskBackend disk scope) env.rendering (str "vault_list") args) := by
  have hlist : vaultCall (diskBackend disk scope) env.rendering (str "vault_list") args =
      catchApiError (.error e) := by
    rw [vaultCall, hpath]
    dsimp only
    rw [if_neg (by decide), if_neg (by decide), if_pos rfl, diskBackend]
    dsimp only
    rw [Vault.listDir, h]
    rfl
  have hclass := Vault.normalise_error h
  rw [hlist]
  cases e with
  | api => exact absurd hclass Bool.false_ne_true
  | rpc => exact absurd hclass Bool.false_ne_true
  | raised cls message => rintro (⟨_, h, _⟩ | ⟨_, _, _, h, _⟩) <;> cases h

theorem endpoint_contained_iff_list :
    Contained (.int 1) (Json.text (str "tools/call") = .text (str "tools/call")) emptyLogs
        (endpoint openEnv openPrincipal ⟨str "t", none⟩
          (.ok (.obj (vaultMessage "vault_list" [(str "path", .text (str "dev"))]))) emptyLogs) ↔
      Answerable openEnv openPrincipal ⟨str "t", none⟩
        (vaultMessage "vault_list" [(str "path", .text (str "dev"))]) emptyLogs.audit :=
  @endpoint_contained_iff openEnv openPrincipal ⟨str "t", none⟩
    (vaultMessage "vault_list" [(str "path", .text (str "dev"))]) emptyLogs (by decide) (by decide)

/-- Listing `..` ends the request without an envelope. -/
theorem vaultList_parent_not_contained :
    ¬ Contained (.int 1) (Json.text (str "tools/call") = .text (str "tools/call")) emptyLogs
      (endpoint openEnv openPrincipal ⟨str "t", none⟩
        (.ok (.obj (vaultMessage "vault_list" [(str "path", .text (str ".."))]))) emptyLogs) := by
  have hraised : (endpoint openEnv openPrincipal ⟨str "t", none⟩
      (.ok (.obj (vaultMessage "vault_list" [(str "path", .text (str ".."))])))
      emptyLogs).1.isOk = false := by
    decide +kernel
  rintro ⟨⟨content, hanswer, _⟩, _⟩
  rw [hanswer] at hraised
  exact Bool.false_ne_true hraised.symm

end DatumSync.Mcp
