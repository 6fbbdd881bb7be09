import DatumSync.Mcp.Endpoint

/-!
# The governance flag of a vault write

Both call logs flag a vault write with the classification of its target, and the target is the
path as the caller wrote it.  The file that is written is the one of the normalised path, so the
flag is right exactly for the spellings on which the two classifications agree.
-/

namespace DatumSync.Mcp

open Python

/-- The governance flags of the rows a request added to the two tables. -/
def recordedFlags (before after : Logs) : List Bool :=
  (after.calls.drop before.calls.length).map CallRow.isGovernance ++
    (after.audit.rows.drop before.audit.rows.length).map fun row ↦ row.entry.governance

theorem recordedFlags_of_eq {before after : Logs} (hcalls : after.calls = before.calls)
    (hrows : after.audit.rows = before.audit.rows) : recordedFlags before after = [] := by
  rw [recordedFlags, hcalls, hrows, List.drop_length, List.drop_length]
  rfl

/-- Whatever `_log_call` records carries the classification of the target. -/
theorem recordedFlags_logCall {env : Env} {principal : Principal} {trace : Audit.Trace}
    {method : Str} {toolName target : Json} {outcome : Audit.Outcome} {errorCode : Option ℤ}
    {logs : Logs} {governance flag : Bool} (htarget : isGovernance target = .ok governance)
    (hflag : flag ∈ recordedFlags logs
      (logCall env principal trace method toolName target outcome errorCode logs)) :
    flag = governance := by
  unfold logCall at hflag
  rw [htarget] at hflag
  dsimp only at hflag
  split at hflag
  · split at hflag
    · rcases List.mem_append.mp hflag with h | h
      · rw [List.drop_left] at h
        exact List.mem_singleton.mp h
      · obtain ⟨row, hrow, rfl⟩ := List.mem_map.mp h
        rw [Audit.mem_write_drop hrow, Audit.rowOf_governance]
        rfl
    · exact absurd (recordedFlags_of_eq rfl rfl ▸ hflag) List.not_mem_nil
  · exact absurd (recordedFlags_of_eq rfl rfl ▸ hflag) List.not_mem_nil

/-- A message that calls `vault_write` with a path and a content. -/
structure IsVaultWrite (body : List (Str × Json)) (path content : Str) : Prop where
  version : Json.fieldD body (str "jsonrpc") .null = .text (str "2.0")
  method : Json.fieldD body (str "method") .null = .text (str "tools/call")
  answered : Json.fieldD body (str "id") .null ≠ .null
  call : ∃ params args, Json.fieldD body (str "params") .null = .obj params ∧
    Json.fieldD params (str "name") .null = .text (str "vault_write") ∧
    Json.fieldD params (str "arguments") .null = .obj args ∧
    Json.fieldD args (str "path") .null = .text path ∧
    Json.fieldD args (str "content") .null = .text content

theorem isGovernance_text {path : Str} (h : path ≠ []) :
    isGovernance (.text path) = .ok (governancePath path) := by
  cases path with
  | nil => exact absurd rfl h
  | cons c rest => rfl

/-- A vault write goes to the handler with the written path as its target. -/
theorem endpoint_vaultWrite {env : Env} {principal : Principal} {trace : Audit.Trace}
    {body : List (Str × Json)} {path content : Str} (logs : Logs)
    (h : IsVaultWrite body path content) :
    ∃ requestId params, endpoint env principal trace (.ok (.obj body)) logs =
      dispatch env principal trace requestId .toolsCall params (.text (str "vault_write"))
        (.text path) logs ∧
      handle env principal trace .toolsCall params logs.audit =
        (catchApiError (env.backend.vaultWrite path content), logs.audit) := by
  obtain ⟨params, args, hparams, hname, hargs, hpath, hcontent⟩ := h.call
  have hparamsOr : (Json.obj params).orElse (.obj []) = .obj params :=
    @Json.orElse_obj params (str "name") _ (by rw [hname]; exact Json.noConfusion)
  have hargsOr : (Json.obj args).orElse (.obj []) = .obj args :=
    @Json.orElse_obj args (str "path") _ (by rw [hpath]; exact Json.noConfusion)
  have hknown : Method.ofJson (.text (str "tools/call")) = some .toolsCall := by decide
  have htarget : callTarget env.rendering.strOf Method.toolsCall.name (.text (str "vault_write"))
      params = .ok (.text path) := by
    have hvault : isVaultTool (.text (str "vault_write")) = true := by decide
    have hcondition : ¬ (Method.toolsCall.name ≠ str "tools/call" ∨
        Json.text (str "vault_write") = .null) := by decide
    rw [callTarget, if_neg hcondition, hargs, hargsOr]
    dsimp only
    rw [if_neg (by decide), if_pos hvault, argumentsOf]
    dsimp only
    rw [hpath]
  refine ⟨Json.fieldD body (str "id") .null, params, ?_, ?_⟩
  · rw [endpoint, h.version, if_pos (by decide), message]
    dsimp only
    rw [hparams, hparamsOr]
    dsimp only
    rw [if_neg h.answered, h.method, if_neg (by decide), hknown]
    dsimp only
    rw [if_pos rfl, hname, htarget]
  · rw [handle, toolsCall, hname]
    dsimp only
    rw [hargs, hargsOr]
    dsimp only
    rw [if_neg (by decide), if_pos (by decide), vaultCall, hpath]
    dsimp only
    rw [if_neg (by decide), if_pos rfl, hcontent]

/-- Every flag the request of a vault write records is the classification of the written path. -/
theorem recordedFlags_vaultWrite {env : Env} {principal : Principal} {trace : Audit.Trace}
    {body : List (Str × Json)} {path content : Str} {logs : Logs} {flag : Bool}
    (h : IsVaultWrite body path content) (hne : path ≠ [])
    (hflag : flag ∈ recordedFlags logs
      (endpoint env principal trace (.ok (.obj body)) logs).2) :
    flag = governancePath path := by
  obtain ⟨requestId, params, hendpoint, hhandle⟩ := endpoint_vaultWrite logs h
  rw [hendpoint, dispatch, hhandle] at hflag
  dsimp only at hflag
  split at hflag
  · exact recordedFlags_logCall (isGovernance_text hne) hflag
  · exact absurd (recordedFlags_of_eq rfl rfl ▸ hflag) List.not_mem_nil
  · exact recordedFlags_logCall (isGovernance_text hne) hflag

/-- A vault write that is recorded at all is flagged like the file it writes exactly when the
caller spelt the path plainly. -/
theorem vaultWrite_flags_iff {env : Env} {principal : Principal} {trace : Audit.Trace}
    {body : List (Str × Json)} {path content normalised : Str} {logs : Logs}
    (h : IsVaultWrite body path content) (hn : Vault.normalise path = .ok normalised)
    (hrecorded : recordedFlags logs
      (endpoint env principal trace (.ok (.obj body)) logs).2 ≠ []) :
    (∀ flag ∈ recordedFlags logs (endpoint env principal trace (.ok (.obj body)) logs).2,
      flag = governancePath normalised) ↔ SpeltPlainly path normalised := by
  have hne : path ≠ [] := by
    rintro rfl
    exact nomatch hn
  rw [← governancePath_eq_iff hn]
  constructor
  · intro hall
    obtain ⟨flag, hflag⟩ := List.exists_mem_of_ne_nil _ hrecorded
    calc
      governancePath path = flag := (recordedFlags_vaultWrite h hne hflag).symm
      _ = governancePath normalised := hall flag hflag
  · intro heq flag hflag
    calc
      flag = governancePath path := recordedFlags_vaultWrite h hne hflag
      _ = governancePath normalised := heq

theorem vaultWrite_flags_iff_trailing_space :
    (∀ flag ∈ recordedFlags emptyLogs (endpoint openEnv openPrincipal ⟨str "t", none⟩
        (.ok (.obj (vaultMessage "vault_write"
          [(str "path", .text (str "skills/a.md ")), (str "content", .text [])]))) emptyLogs).2,
      flag = governancePath (str "skills/a.md")) ↔
      SpeltPlainly (str "skills/a.md ") (str "skills/a.md") :=
  vaultWrite_flags_iff (show IsVaultWrite _ _ [] from
      ⟨by decide, by decide, by decide, _, _, rfl, by decide, rfl, by decide, by decide⟩)
    (by decide +kernel) (by decide +kernel)

/-- A blank in front of `SOUL.md` writes the file and leaves both rows unflagged. -/
theorem vaultWrite_unflagged :
    Vault.normalise (str " SOUL.md") = .ok (str "SOUL.md") ∧
      governancePath (str "SOUL.md") = true ∧
      recordedFlags emptyLogs (endpoint openEnv openPrincipal ⟨str "t", none⟩
        (.ok (.obj (vaultMessage "vault_write"
          [(str "path", .text (str " SOUL.md")), (str "content", .text (str "x"))])))
        emptyLogs).2 = [false, false] := by
  decide +kernel

end DatumSync.Mcp
