import DatumSync.Auth.Store

/-!
# How long a credential is accepted

From a state in which a credential is live on, through every run of the statements that write the
tables, the credential is accepted exactly as long as no statement has withdrawn it, it has not
expired, and its account (and, for an agent, the agent) is enabled.  So a withdrawal is final and
takes effect with the statement that makes it, and nothing else that is issued, rotated or revoked
ever breaks a holder.

What is assumed of `new_token` is that a value drawn later hashes to no other digest than its own.
-/

namespace DatumSync.Auth

open Foundation OAuth Python

variable {p : Provider} {sessionTtl now dbNow : ℤ}

/-! ## What the statements do to a row -/

/-- The columns of an account token that no statement writes. -/
def AccountToken.fixed (row : AccountToken) : AccountToken :=
  { row with revokedAt := none, lastUsedAt := none }

/-- The columns of an OAuth token that no statement writes. -/
def fixedToken (row : TokenRow) : TokenRow :=
  { row with revokedAt := none, rotatedTo := none, lastUsedAt := none }

theorem AccountToken.columns {first second : AccountToken} (h : first.fixed = second.fixed) :
    first.accountId = second.accountId ∧ first.tokenHash = second.tokenHash ∧
      first.expiresAt = second.expiresAt := by
  have hfields := (AccountToken.mk.injEq ..).mp h
  exact ⟨hfields.2.1, hfields.2.2.2.1, hfields.2.2.2.2.1⟩

theorem token_columns {first second : TokenRow} (h : fixedToken first = fixedToken second) :
    first.tokenHash = second.tokenHash ∧ first.kind = second.kind ∧
      first.clientId = second.clientId ∧ first.accountId = second.accountId ∧
      first.resource = second.resource ∧ first.scope = second.scope ∧
      first.expiresAt = second.expiresAt := by
  have hfields := (TokenRow.mk.injEq ..).mp h
  obtain ⟨-, hhash, hkind, hclient, haccount, hresource, hscope, hexpiry, -⟩ := hfields
  exact ⟨hhash, hkind, hclient, haccount, hresource, hscope, hexpiry⟩

/-- The columns of an agent that no statement writes. -/
def Agent.fixed (row : Agent) : ℤ × ℤ × Str := (row.id, row.accountId, row.name)

/-- The columns of an account that no statement writes. -/
def Account.fixed (row : Account) : Account :=
  { row with disabled := false, maxTier := 0, rateLimitPerMin := none, lastUsedAt := none }

namespace Write

def tokenFate : Write → AccountToken → Option AccountToken
  | revokeLabel accountId label dbNow, row =>
    some (if Tokens.isNamed accountId label row then row.revoke dbNow else row)
  | revokeAll accountId dbNow, row =>
    some (if Tokens.isLiveOf accountId row then row.revoke dbNow else row)
  | useAccountToken id dbNow, row =>
    some (if row.id == id then { row with lastUsedAt := some dbNow } else row)
  | _, row => some row

def tokenInserts (p : Provider) : Write → List AccountToken
  | createAccount id tokenId _ _ _ _ _ raw => tokenRow p tokenId id Accounts.initialLabel none raw
  | createToken id accountId label expiresAt raw => tokenRow p id accountId label expiresAt raw
  | _ => []

def agentFate (p : Provider) : Write → Agent → Option Agent
  | updateGrants name proxyGrants, row =>
    some (if row.name == name then { row with proxyGrants := proxyGrants } else row)
  | mintAgentToken name raw, row =>
    some (if row.name == name then Agents.withToken p raw row else row)
  | disableAgent name value, row =>
    some (if row.name == name then { row with disabled := value } else row)
  | deleteAgent name, row => if row.name != name then some row else none
  | useAgent id dbNow, row =>
    some (if row.id == id then { row with lastUsedAt := some dbNow } else row)
  | _, row => some row

def agentInserts (p : Provider) : Write → List Agent
  | createAgent id accountId name proxyGrants raw => Agents.row p id accountId name proxyGrants raw
  | _ => []

def oauthFate (p : Provider) : Write → TokenRow → Option TokenRow
  | signOut raw dbNow, row => some (if isSessionOf p raw row then row.revoke dbNow else row)
  | rotate id nextId _ _ _ _ dbNow, row =>
    some (if row.id == id then row.rotate dbNow (some (nextId + 1)) else row)
  | revokeFamily clientId accountId seen dbNow, row =>
    some (if row.inFamily clientId accountId && seen.contains row.id then row.revoke dbNow else row)
  | revokeGrants accountId seen dbNow, row =>
    some (if row.accountId == accountId && row.revokedAt.isNone && seen.contains row.id then
      row.revoke dbNow else row)
  | revokeToken clientId token dbNow, row =>
    some (if isTokenOf p token clientId row then row.revoke dbNow else row)
  | useToken id dbNow, row =>
    some (if row.id == id then { row with lastUsedAt := some dbNow } else row)
  | _, row => some row

def oauthInserts (p : Provider) (sessionTtl : ℤ) : Write → List TokenRow
  | signIn id accountId raw dbNow => sessionRow p sessionTtl id accountId raw dbNow
  | mint nextId grant access refresh now => mintRows p nextId grant access refresh now
  | rotate _ nextId grant access refresh now _ => mintRows p nextId grant access refresh now
  | _ => []

def accountFate : Write → Account → Option Account
  | disableAccount name value, row =>
    some (if row.name == name then { row with disabled := value } else row)
  | rateLimit name perMin, row =>
    some (if row.name == name then { row with rateLimitPerMin := perMin } else row)
  | updateAccount name disabled maxTier, row =>
    some (if row.name == name then
      { row with disabled := disabled.getD row.disabled, maxTier := maxTier.getD row.maxTier }
      else row)
  | useAccount id dbNow, row =>
    some (if row.id == id then { row with lastUsedAt := some dbNow } else row)
  | _, row => some row

def accountInserts : Write → List Account
  | createAccount id _ name values maxTier admin vaultScope _ =>
    [Accounts.row id name values maxTier admin vaultScope]
  | _ => []

/-! ## What withdraws a credential -/

/-- The statement revokes the account token, unless it has been before. -/
def withdrawsToken : Write → AccountToken → Bool
  | revokeLabel accountId label _, row => row.accountId == accountId && row.label == label
  | revokeAll accountId _, row => row.accountId == accountId
  | _, _ => false

/-- The statement replaces the token of the agent, or deletes the agent. -/
def withdrawsAgent : Write → Str → Bool
  | mintAgentToken name _, agent => agent == name
  | deleteAgent name, agent => agent == name
  | _, _ => false

/-- The statement revokes the OAuth token or the session, unless it has been before. -/
def withdrawsOauth (p : Provider) : Write → TokenRow → Bool
  | signOut raw _, row => decide (p.hashToken raw = .ok row.tokenHash) && row.kind == .session
  | rotate id _ _ _ _ _ _, row => row.id == id
  | revokeFamily clientId accountId seen _, row =>
    row.clientId == some clientId && row.accountId == accountId && seen.contains row.id
  | revokeGrants accountId seen _, row => row.accountId == accountId && seen.contains row.id
  | revokeToken clientId token _, row =>
    decide (p.hashToken token = .ok row.tokenHash) && row.clientId == some clientId
  | _, _ => false

end Write

/-! ## The tables of a run -/

theorem writes_accounts : (credentials p sessionTtl).Writes (fun s ↦ s.db.accounts)
    Write.accountFate Write.accountInserts := by
  intro s a t h
  dsimp only
  rw [(credentials_step h).1]
  cases a with
  | createAccount => exact rows_inserted _ _
  | disableAccount | rateLimit | updateAccount | useAccount => exact rows_updated _ _
  | _ => exact rows_kept _

theorem writes_accountTokens : (credentials p sessionTtl).Writes (fun s ↦ s.db.accountTokens)
    Write.tokenFate (Write.tokenInserts p) := by
  intro s a t h
  dsimp only
  rw [(credentials_step h).1]
  cases a with
  | createAccount | createToken => exact rows_inserted _ _
  | revokeLabel | revokeAll | useAccountToken => exact rows_updated _ _
  | _ => exact rows_kept _

theorem writes_agents : (credentials p sessionTtl).Writes (fun s ↦ s.db.agents)
    (Write.agentFate p) (Write.agentInserts p) := by
  intro s a t h
  dsimp only
  rw [(credentials_step h).1]
  cases a with
  | createAgent => exact rows_inserted _ _
  | updateGrants | mintAgentToken | disableAgent | useAgent => exact rows_updated _ _
  | deleteAgent => exact rows_deleted _ _
  | _ => exact rows_kept _

theorem writes_oauthTokens : (credentials p sessionTtl).Writes (fun s ↦ s.db.oauthTokens)
    (Write.oauthFate p) (Write.oauthInserts p sessionTtl) := by
  intro s a t h
  dsimp only
  rw [(credentials_step h).1]
  cases a with
  | signIn | mint => exact rows_inserted _ _
  | signOut | revokeFamily | revokeGrants | revokeToken | useToken => exact rows_updated _ _
  | rotate id nextId grant access refresh now dbNow =>
    have hupdated := rows_updated (fun row ↦
      if row.id == id then TokenRow.rotate dbNow (some (nextId + 1)) row else row) s.db.oauthTokens
    rw [List.append_nil] at hupdated
    exact congrArg (· ++ mintRows p nextId grant access refresh now) hupdated
  | _ => exact rows_kept _

/-- A row is revoked by what is for it, whether or not it had been before. -/
theorem isSome_ite {mark : Option ℤ} {b : Bool} {moment : ℤ} :
    (if (b && mark.isNone) = true then some moment else mark).isSome = true ↔
      mark.isSome = true ∨ b = true := by
  cases mark with
  | none => cases b <;> simp
  | some old => cases b <;> simp

theorem tokenFate_marked (a : Write) (row : AccountToken) :
    ∃ next, a.tokenFate row = some next ∧ next.fixed = row.fixed ∧
      (next.revokedAt.isSome = true ↔
        row.revokedAt.isSome = true ∨ a.withdrawsToken row.fixed = true) := by
  have hsame : row.revokedAt.isSome = true ↔ row.revokedAt.isSome = true ∨ false = true := by simp
  cases a with
  | revokeLabel accountId label dbNow =>
    refine ⟨_, rfl, ?_, ?_⟩
    · split <;> rfl
    · rw [Tokens.isNamed, apply_ite AccountToken.revokedAt]
      exact isSome_ite
  | revokeAll accountId dbNow =>
    refine ⟨_, rfl, ?_, ?_⟩
    · split <;> rfl
    · rw [Tokens.isLiveOf, apply_ite AccountToken.revokedAt]
      exact isSome_ite
  | useAccountToken id dbNow =>
    refine ⟨_, rfl, ?_, ?_⟩
    · split <;> rfl
    · rw [apply_ite AccountToken.revokedAt, ite_self]
      exact hsame
  | _ => exact ⟨row, rfl, rfl, hsame⟩

theorem oauthFate_marked (a : Write) (row : TokenRow) :
    ∃ next, a.oauthFate p row = some next ∧ fixedToken next = fixedToken row ∧
      (next.revokedAt.isSome = true ↔
        row.revokedAt.isSome = true ∨ a.withdrawsOauth p (fixedToken row) = true) := by
  have hsame : row.revokedAt.isSome = true ↔ row.revokedAt.isSome = true ∨ false = true := by simp
  cases a with
  | signOut raw dbNow =>
    refine ⟨_, rfl, ?_, ?_⟩
    · split <;> rfl
    · rw [isSessionOf, apply_ite TokenRow.revokedAt]
      exact isSome_ite
  | rotate id nextId grant access refresh now dbNow =>
    refine ⟨_, rfl, ?_, ?_⟩
    · split <;> rfl
    · rw [apply_ite TokenRow.revokedAt]
      by_cases h : (row.id == id) = true
      · rw [if_pos h]
        exact iff_of_true rfl (.inr h)
      · rw [if_neg h]
        exact (or_iff_left h).symm
  | revokeFamily clientId accountId seen dbNow =>
    refine ⟨_, rfl, ?_, ?_⟩
    · split <;> rfl
    · rw [TokenRow.inFamily, Bool.and_right_comm, apply_ite TokenRow.revokedAt]
      exact isSome_ite
  | revokeGrants accountId seen dbNow =>
    refine ⟨_, rfl, ?_, ?_⟩
    · split <;> rfl
    · rw [Bool.and_right_comm, apply_ite TokenRow.revokedAt]
      exact isSome_ite
  | revokeToken clientId token dbNow =>
    refine ⟨_, rfl, ?_, ?_⟩
    · split <;> rfl
    · rw [isTokenOf, apply_ite TokenRow.revokedAt]
      exact isSome_ite
  | useToken id dbNow =>
    refine ⟨_, rfl, ?_, ?_⟩
    · split <;> rfl
    · rw [apply_ite TokenRow.revokedAt, ite_self]
      exact hsame
  | _ => exact ⟨row, rfl, rfl, hsame⟩

/-! ## What the two channels answer in one state -/

section Answers

variable {db : Db} {raw hash : Str} {principal : Principal}

def Db.Enabled (db : Db) (id : ℤ) (account : Account) : Prop :=
  account ∈ db.accounts ∧ account.id = id ∧ account.disabled = false

/-- A row that alone meets the test of a query is joined to its account. -/
theorem Db.exists_joined {R : Type} {accountId : R → ℤ} {f : R → Bool}
    {rows : List R} {row : R} (hrow : row ∈ rows) (hf : f row = true)
    (hunique : ∀ other ∈ rows, f other = true → other = row)
    (howner : accountId row ∈ db.accounts.map Account.id) :
    ∃ account ∈ db.accounts, account.id = accountId row ∧
      db.joined accountId f rows = some (row, account) := by
  obtain ⟨owner, howner, hid⟩ := List.mem_map.mp howner
  cases hjoined : db.joined accountId f rows with
  | none =>
    have hnone := List.findSome?_eq_none_iff.mp hjoined row (List.mem_filter.mpr ⟨hrow, hf⟩)
    rw [Option.map_eq_none_iff, List.find?_eq_none] at hnone
    exact absurd (beq_iff_eq.mpr hid) (hnone owner howner)
  | some found =>
    obtain ⟨other, account⟩ := found
    obtain ⟨hother, hfother, haccount, hjoin⟩ := Db.joined_eq_some hjoined
    obtain rfl := hunique other hother hfother
    exact ⟨account, haccount, hjoin, rfl⟩

theorem Db.joined_eq_none {R : Type} {accountId : R → ℤ} {f : R → Bool} {rows : List R}
    (h : ∀ row ∈ rows, f row = false) : db.joined accountId f rows = none := by
  have hempty : rows.filter f = [] := by
    rw [List.filter_eq_nil_iff]
    intro row hrow
    rw [h row hrow]
    exact Bool.false_ne_true
  rw [Db.joined, hempty]
  rfl

theorem Db.Valid.account_ext (hvalid : db.Valid) {first second : Account}
    (hfirst : first ∈ db.accounts) (hsecond : second ∈ db.accounts) (hid : first.id = second.id) :
    first = second :=
  eq_of_unique hvalid.accountIds hsecond hfirst hid

theorem Db.Valid.agent_ext (hvalid : db.Valid) {first second : Agent}
    (hfirst : first ∈ db.agents) (hsecond : second ∈ db.agents)
    (hhash : first.tokenHash = some hash) (hother : second.tokenHash = some hash) :
    first = second := by
  by_contra hne
  have hpairwise : db.agents.Pairwise fun a b ↦
      ∀ h ∈ a.tokenHash, ∀ h' ∈ b.tokenHash, h ≠ h' :=
    List.pairwise_filterMap.mp hvalid.agentHashes
  have : Std.Symm fun a b : Agent ↦ ∀ h ∈ a.tokenHash, ∀ h' ∈ b.tokenHash, h ≠ h' :=
    ⟨fun a b hab h hh h' hh' ↦ (hab h' hh' h hh).symm⟩
  exact hpairwise.forall hfirst hsecond hne hash hhash hash hother rfl

/-- A token is found under its kind and hash. -/
theorem Db.Valid.tokenOf_of_mem (hvalid : db.Valid) {row : TokenRow} (hrow : row ∈ db.oauthTokens) :
    ∃ account ∈ db.accounts, account.id = row.accountId ∧
      db.tokenOf row.kind row.tokenHash = some (row, account) := by
  apply Db.exists_joined hrow
    (f := fun other ↦ other.tokenHash == row.tokenHash && other.kind == row.kind)
  · rw [beq_self_eq_true, beq_self_eq_true, Bool.true_and]
  · intro other hother heq
    exact eq_of_unique hvalid.oauthHashes hrow hother (eq_of_beq (Bool.and_eq_true_iff.mp heq).1)
  · exact hvalid.oauthOwners row hrow

/-- What holds of the account with an id that is enabled. -/
theorem Db.Valid.enabled_iff (hvalid : db.Valid) {owner : Account} (howner : owner ∈ db.accounts)
    {P : Account → Prop} : (∃ account, db.Enabled owner.id account ∧ P account) ↔
      owner.disabled = false ∧ P owner := by
  constructor
  · intro h
    obtain ⟨account, ⟨haccount, hid, henabled⟩, hP⟩ := h
    obtain rfl := hvalid.account_ext haccount howner hid
    exact ⟨henabled, hP⟩
  · intro h
    exact ⟨owner, ⟨howner, rfl, h.1⟩, h.2⟩

/-- A principal is granted once the checks of a row have passed. -/
theorem granted_iff {check : Except Exc Unit} {granted : Principal} {used : Db} :
    (∃ after, (match check with
      | .error e => .error e
      | .ok () => .ok (granted, used) : Except Exc (Principal × Db)) = .ok (principal, after)) ↔
      check = .ok () ∧ principal = granted := by
  cases check with
  | error e => simp
  | ok u => simp [eq_comm]

theorem not_isExpired_iff {expiresAt : Option ℤ} :
    isExpired now expiresAt = false ↔ ∀ moment, expiresAt = some moment → now ≤ moment := by
  cases expiresAt with
  | none => simp [isExpired]
  | some moment => simp [isExpired]

theorem checkAccountToken_ok_iff {row : AccountToken} {account : Account} :
    checkAccountToken now row account = .ok () ↔ row.revokedAt = none ∧
      (∀ moment, row.expiresAt = some moment → now ≤ moment) ∧ account.disabled = false := by
  constructor
  · exact checkAccountToken_ok
  · intro h
    obtain ⟨hlive, hexpiry, henabled⟩ := h
    rw [checkAccountToken, hlive, henabled, not_isExpired_iff.mpr hexpiry]
    rfl

theorem checkSession_ok_iff {row : TokenRow} {account : Account} :
    checkSession now row account = .ok () ↔ row.revokedAt = none ∧
      (∀ moment, row.expiresAt = some moment → now ≤ moment) ∧ account.disabled = false := by
  constructor
  · exact checkSession_ok
  · intro h
    obtain ⟨hlive, hexpiry, henabled⟩ := h
    rw [checkSession, hlive, henabled, not_isExpired_iff.mpr hexpiry]
    rfl

theorem checkAccess_ok_iff {row : TokenRow} {account : Account} :
    checkAccess p now row account = .ok () ↔ row.revokedAt = none ∧
      (∀ moment, row.expiresAt = some moment → now ≤ moment) ∧ account.disabled = false ∧
      ∀ resource, row.resource = some resource →
        p.canonicalResource resource = p.canonicalResource p.mcpResource := by
  constructor
  · exact checkAccess_ok
  · intro h
    obtain ⟨hlive, hexpiry, henabled, haudience⟩ := h
    have hsame : row.resource.any (fun resource ↦
        p.canonicalResource resource != p.canonicalResource p.mcpResource) = false := by
      cases hresource : row.resource with
      | none => rfl
      | some resource => simp [haudience resource hresource]
    rw [checkAccess, hlive, henabled, not_isExpired_iff.mpr hexpiry, hsame]
    rfl

/-- What the bearer channel answers to the token of an account. -/
theorem resolve_accountToken_iff (hvalid : db.Valid) {row : AccountToken}
    (hrow : row ∈ db.accountTokens) (hhash : p.hashToken raw = .ok row.tokenHash)
    (hagents : ∀ other ∈ db.agents, other.tokenHash ≠ some row.tokenHash)
    (hoauth : ∀ other ∈ db.oauthTokens, other.tokenHash ≠ row.tokenHash) :
    (∃ after, resolve p now dbNow db raw = .ok (principal, after)) ↔ row.revokedAt = none ∧
      (∀ moment, row.expiresAt = some moment → now ≤ moment) ∧
      ∃ account, db.Enabled row.accountId account ∧
        principal = accountPrincipal account .token := by
  have hagent : db.agentOf row.tokenHash = none :=
    Db.joined_eq_none fun other hother ↦ beq_eq_false_iff_ne.mpr (hagents other hother)
  have haccess : db.tokenOf .access row.tokenHash = none := by
    apply Db.joined_eq_none
    intro other hother
    rw [beq_eq_false_iff_ne.mpr (hoauth other hother), Bool.false_and]
  obtain ⟨owner, howner, hid, hfound⟩ := Db.exists_joined hrow (beq_self_eq_true row.tokenHash)
    (fun other hother heq ↦ eq_of_unique hvalid.tokenHashes hrow hother (eq_of_beq heq))
    (hvalid.tokenOwners row hrow)
  have hfound : db.accountTokenOf row.tokenHash = some (row, owner) := hfound
  have hanswer : resolve p now dbNow db raw =
      match checkAccountToken now row owner with
      | .error e => .error e
      | .ok () => .ok (accountPrincipal owner .token, db.useAccountToken dbNow row.id owner.id) := by
    rw [resolve, hhash]
    dsimp only
    rw [resolveHash, hagent]
    dsimp only
    rw [resolveToken, haccess]
    dsimp only
    cases hcheck : checkAccountToken now row owner with
    | error e => simp only [resolveAccountToken, hfound, hcheck]
    | ok checked => simp only [resolveAccountToken, hfound, hcheck]
  rw [hanswer, granted_iff, checkAccountToken_ok_iff, ← hid, hvalid.enabled_iff howner, and_assoc,
    and_assoc]

/-- What the bearer channel answers to an access token. -/
theorem resolve_access_iff (hvalid : db.Valid) {row : TokenRow} (hrow : row ∈ db.oauthTokens)
    (hkind : row.kind = .access) (hhash : p.hashToken raw = .ok row.tokenHash)
    (hagents : ∀ other ∈ db.agents, other.tokenHash ≠ some row.tokenHash) :
    (∃ after, resolve p now dbNow db raw = .ok (principal, after)) ↔ row.revokedAt = none ∧
      (∀ moment, row.expiresAt = some moment → now ≤ moment) ∧
      (∀ resource, row.resource = some resource →
        p.canonicalResource resource = p.canonicalResource p.mcpResource) ∧
      ∃ account, db.Enabled row.accountId account ∧ principal =
        { accountPrincipal account .oauth with clientId := row.clientId, scope := row.scope } := by
  have hagent : db.agentOf row.tokenHash = none :=
    Db.joined_eq_none fun other hother ↦ beq_eq_false_iff_ne.mpr (hagents other hother)
  obtain ⟨owner, howner, hid, hfound⟩ := hvalid.tokenOf_of_mem hrow
  rw [hkind] at hfound
  have hanswer : resolve p now dbNow db raw =
      match checkAccess p now row owner with
      | .error e => .error e
      | .ok () => .ok
        ({ accountPrincipal owner .oauth with clientId := row.clientId, scope := row.scope },
          db.useToken dbNow row.id) := by
    rw [resolve, hhash]
    dsimp only
    rw [resolveHash, hagent]
    dsimp only
    cases hcheck : checkAccess p now row owner with
    | error e => simp only [resolveToken, hfound, hcheck]
    | ok checked => simp only [resolveToken, hfound, hcheck]
  rw [hanswer, granted_iff, checkAccess_ok_iff, ← hid, hvalid.enabled_iff howner, and_assoc,
    and_assoc, and_assoc, and_left_comm (a := owner.disabled = false)]

/-- What the cookie channel answers to a session. -/
theorem resolveSession_iff (hvalid : db.Valid) {row : TokenRow} (hrow : row ∈ db.oauthTokens)
    (hkind : row.kind = .session) (hhash : p.hashToken raw = .ok row.tokenHash) :
    (∃ after, resolveSession p now dbNow db raw = .ok (principal, after)) ↔
      row.revokedAt = none ∧ (∀ moment, row.expiresAt = some moment → now ≤ moment) ∧
      ∃ account, db.Enabled row.accountId account ∧
        principal = accountPrincipal account .session := by
  obtain ⟨owner, howner, hid, hfound⟩ := hvalid.tokenOf_of_mem hrow
  rw [hkind] at hfound
  have hanswer : resolveSession p now dbNow db raw =
      match checkSession now row owner with
      | .error e => .error e
      | .ok () => .ok (accountPrincipal owner .session, db.useToken dbNow row.id) := by
    rw [resolveSession, hhash]
    dsimp only
    cases hcheck : checkSession now row owner with
    | error e => simp only [resolveSessionHash, hfound, hcheck]
    | ok checked => simp only [resolveSessionHash, hfound, hcheck]
  rw [hanswer, granted_iff, checkSession_ok_iff, ← hid, hvalid.enabled_iff howner, and_assoc,
    and_assoc]

/-- What the bearer channel answers to the token of an agent. -/
theorem resolve_agent_iff (hvalid : db.Valid) {row : Agent} (hrow : row ∈ db.agents)
    (htoken : row.tokenHash = some hash) (hhash : p.hashToken raw = .ok hash) :
    (∃ after, resolve p now dbNow db raw = .ok (principal, after)) ↔ row.disabled = false ∧
      ∃ account, db.Enabled row.accountId account ∧ principal = agentPrincipal row account := by
  obtain ⟨owner, howner, hid, hfound⟩ := Db.exists_joined hrow
    (f := fun other ↦ other.tokenHash == some hash) (beq_iff_eq.mpr htoken)
    (fun other hother heq ↦ hvalid.agent_ext hother hrow (eq_of_beq heq) htoken)
    (hvalid.agentOwners row hrow)
  have hfound : db.agentOf hash = some (row, owner) := hfound
  have hanswer : resolve p now dbNow db raw =
      if row.disabled then .error (unauthenticated "agent is disabled" "AGENT_DISABLED")
      else if owner.disabled then
        .error (unauthenticated "account is disabled" "ACCOUNT_DISABLED")
      else .ok (agentPrincipal row owner, db.useAgent dbNow row.id) := by
    rw [resolve, hhash]
    dsimp only
    rw [resolveHash, hfound]
  rw [hanswer, ← hid, hvalid.enabled_iff howner]
  cases row.disabled with
  | true => simp
  | false =>
    cases owner.disabled with
    | true => simp
    | false => simp [eq_comm]

/-- A text whose hash no store knows is not accepted. -/
theorem not_resolved_of_unknown (hhash : p.hashToken raw = .ok hash)
    (hagents : ∀ row ∈ db.agents, row.tokenHash ≠ some hash)
    (hoauth : ∀ row ∈ db.oauthTokens, row.tokenHash ≠ hash)
    (htokens : ∀ row ∈ db.accountTokens, row.tokenHash ≠ hash) :
    ¬ ∃ after, resolve p now dbNow db raw = .ok (principal, after) := by
  intro h
  obtain ⟨after, h⟩ := h
  obtain ⟨other, hother, hbears⟩ := resolve_sound h
  rw [hhash, Except.ok.injEq] at hother
  subst hother
  cases hbears with
  | agent row account hrow haccount howner htoken => exact hagents row hrow htoken
  | access row account hrow haccount howner htoken => exact hoauth row hrow htoken
  | account row account hrow haccount howner htoken => exact htokens row hrow htoken

end Answers

/-! ## Hashes that nobody draws -/

/-- No statement of the run stores this hash. -/
def Undrawn (p : Provider) (hash : Str) (actions : List Write) : Prop :=
  ∀ a ∈ actions, ∀ raw ∈ a.draws, p.hashToken raw ≠ .ok hash

section Undrawn

variable {a : Write} {actions : List Write} {hash : Str} {s t : Store}

theorem mem_tokenRow {id accountId : ℤ} {label raw : Str} {expiresAt : Option ℤ}
    {row : AccountToken} (h : row ∈ tokenRow p id accountId label expiresAt raw) :
    p.hashToken raw = .ok row.tokenHash := by
  unfold tokenRow at h
  cases hhash : p.hashToken raw with
  | error e =>
    rw [hhash] at h
    cases h
  | ok hash =>
    rw [hhash, List.mem_singleton] at h
    rw [h]

theorem mem_tokenInserts {row : AccountToken} (h : row ∈ a.tokenInserts p) :
    ∃ raw ∈ a.draws, p.hashToken raw = .ok row.tokenHash := by
  cases a with
  | createAccount id tokenId name values maxTier admin vaultScope raw =>
    exact ⟨raw, List.mem_singleton_self raw, mem_tokenRow h⟩
  | createToken id accountId label expiresAt raw =>
    exact ⟨raw, List.mem_singleton_self raw, mem_tokenRow h⟩
  | _ => cases h

theorem mem_agentInserts {row : Agent} (h : row ∈ a.agentInserts p) :
    ∃ raw ∈ a.draws, ∃ hash, p.hashToken raw = .ok hash ∧ row.tokenHash = some hash := by
  cases a with
  | createAgent id accountId name proxyGrants raw =>
    refine ⟨raw, List.mem_singleton_self raw, ?_⟩
    unfold Write.agentInserts Agents.row at h
    dsimp only at h
    cases hhash : p.hashToken raw with
    | error e =>
      rw [hhash] at h
      cases h
    | ok hash =>
      rw [hhash, List.mem_singleton] at h
      exact ⟨hash, rfl, h ▸ rfl⟩
  | _ => cases h

theorem mem_mintRows {nextId now : ℤ} {grant : GrantFor} {access refresh : Str} {row : TokenRow}
    (h : row ∈ mintRows p nextId grant access refresh now) :
    ∃ raw ∈ [access, refresh], p.hashToken raw = .ok row.tokenHash := by
  unfold mintRows at h
  cases haccess : p.hashToken access with
  | error e =>
    rw [haccess] at h
    cases h
  | ok accessHash =>
    cases hrefresh : p.hashToken refresh with
    | error e =>
      rw [haccess, hrefresh] at h
      cases h
    | ok refreshHash =>
      rw [haccess, hrefresh] at h
      cases h with
      | head => exact ⟨access, List.mem_cons_self, haccess⟩
      | tail _ h =>
        obtain rfl := List.mem_singleton.mp h
        exact ⟨refresh, List.mem_cons_of_mem access List.mem_cons_self, hrefresh⟩

theorem mem_oauthInserts {row : TokenRow} (h : row ∈ a.oauthInserts p sessionTtl) :
    ∃ raw ∈ a.draws, p.hashToken raw = .ok row.tokenHash := by
  cases a with
  | signIn id accountId raw dbNow =>
    refine ⟨raw, List.mem_singleton_self raw, ?_⟩
    unfold Write.oauthInserts sessionRow at h
    dsimp only at h
    cases hhash : p.hashToken raw with
    | error e =>
      rw [hhash] at h
      cases h
    | ok hash =>
      rw [hhash, List.mem_singleton] at h
      rw [h]
  | mint nextId grant access refresh now => exact mem_mintRows h
  | rotate id nextId grant access refresh now dbNow => exact mem_mintRows h
  | _ => cases h

theorem exists_hash_of_draw (hrun : (credentials p sessionTtl).run s actions = some t)
    (ha : a ∈ actions) {raw : Str} (hraw : raw ∈ a.draws) : ∃ hash, p.hashToken raw = .ok hash := by
  obtain ⟨before, after, hstep⟩ := Machine.exists_step_of_mem hrun ha
  apply (credentials_step hstep).2
  cases a with
  | signOut | revokeToken => cases hraw
  | _ => exact hraw

/-- The hash of an agent after a statement is its hash before, or one that is minted for it. -/
theorem agentFate_hash (hdraws : ∀ raw ∈ a.draws, ∃ hash, p.hashToken raw = .ok hash)
    {row next : Agent} (h : a.agentFate p row = some next) :
    next.fixed = row.fixed ∧ (next.tokenHash = row.tokenHash ∧ a.withdrawsAgent row.name = false ∨
      ∃ raw hash, a = .mintAgentToken row.name raw ∧ p.hashToken raw = .ok hash ∧
        next.tokenHash = some hash) := by
  cases a with
  | updateGrants name proxyGrants =>
    obtain rfl := Option.some.inj h
    refine ⟨?_, .inl ⟨?_, rfl⟩⟩
    · split <;> rfl
    · split <;> rfl
  | mintAgentToken name raw =>
    obtain rfl := Option.some.inj h
    obtain ⟨hash, hhash⟩ := hdraws raw (List.mem_singleton_self raw)
    rw [Agents.withToken, hhash]
    by_cases hname : (row.name == name) = true
    · rw [if_pos hname]
      obtain rfl := eq_of_beq hname
      exact ⟨rfl, .inr ⟨raw, hash, rfl, hhash, rfl⟩⟩
    · rw [if_neg hname]
      exact ⟨rfl, .inl ⟨rfl, Bool.eq_false_iff.mpr hname⟩⟩
  | disableAgent name value =>
    obtain rfl := Option.some.inj h
    refine ⟨?_, .inl ⟨?_, rfl⟩⟩
    · split <;> rfl
    · split <;> rfl
  | deleteAgent name =>
    obtain ⟨hname, hrow⟩ := Option.ite_none_right_eq_some.mp h
    obtain rfl := Option.some.inj hrow
    exact ⟨rfl, .inl ⟨rfl, beq_eq_false_iff_ne.mpr (bne_iff_ne.mp hname)⟩⟩
  | useAgent id dbNow =>
    obtain rfl := Option.some.inj h
    refine ⟨?_, .inl ⟨?_, rfl⟩⟩
    · split <;> rfl
    · split <;> rfl
  | _ =>
    obtain rfl := Option.some.inj h
    exact ⟨rfl, .inl ⟨rfl, rfl⟩⟩

/-- A statement that does not withdraw the token of an agent leaves the agent its token. -/
theorem agentFate_spared (a : Write) (row : Agent) (h : ¬ a.withdrawsAgent row.fixed.2.2 = true)
    (hrow : row.tokenHash = some hash) :
    ∃ next, a.agentFate p row = some next ∧ next.fixed = row.fixed ∧
      next.tokenHash = some hash := by
  cases a with
  | updateGrants name proxyGrants =>
    refine ⟨_, rfl, ?_, ?_⟩
    · split <;> rfl
    · split <;> exact hrow
  | mintAgentToken name raw =>
    have hname : ¬ (row.name == name) = true := h
    refine ⟨row, ?_, rfl, hrow⟩
    rw [Write.agentFate, if_neg hname]
  | disableAgent name value =>
    refine ⟨_, rfl, ?_, ?_⟩
    · split <;> rfl
    · split <;> exact hrow
  | deleteAgent name =>
    have hname : (row.name == name) = false := Bool.eq_false_iff.mpr h
    refine ⟨row, ?_, rfl, hrow⟩
    rw [Write.agentFate, bne, hname]
    rfl
  | useAgent id dbNow =>
    refine ⟨_, rfl, ?_, ?_⟩
    · split <;> rfl
    · split <;> exact hrow
  | _ => exact ⟨row, rfl, rfl, hrow⟩

variable (hundrawn : Undrawn p hash actions)
  (hrun : (credentials p sessionTtl).run s actions = some t)
include hundrawn hrun

theorem agents_of_undrawn (hstart : ∀ row ∈ s.db.agents, row.tokenHash ≠ some hash) :
    ∀ row ∈ t.db.agents, row.tokenHash ≠ some hash := by
  apply writes_agents.forall_mem hrun hstart
  · intro a ha row hrow heq
    obtain ⟨raw, hraw, other, hother, hrow⟩ := mem_agentInserts hrow
    rw [hrow, Option.some.injEq] at heq
    exact hundrawn a ha raw hraw (heq ▸ hother)
  · intro a ha row next hrow hfate heq
    cases (agentFate_hash (fun raw ↦ exists_hash_of_draw hrun ha) hfate).2 with
    | inl hkept => exact hrow (hkept.1 ▸ heq)
    | inr hdrawn =>
      obtain ⟨raw, other, rfl, hother, hnext⟩ := hdrawn
      rw [hnext, Option.some.injEq] at heq
      exact hundrawn _ ha raw (List.mem_singleton_self raw) (heq ▸ hother)

theorem oauthTokens_of_undrawn (hstart : ∀ row ∈ s.db.oauthTokens, row.tokenHash ≠ hash) :
    ∀ row ∈ t.db.oauthTokens, row.tokenHash ≠ hash := by
  apply writes_oauthTokens.forall_mem hrun hstart
  · intro a ha row hrow heq
    obtain ⟨raw, hraw, hother⟩ := mem_oauthInserts hrow
    exact hundrawn a ha raw hraw (heq ▸ hother)
  · intro a ha row next hrow hfate heq
    obtain ⟨same, hsame, hfixed, -⟩ := oauthFate_marked (p := p) a row
    rw [hfate, Option.some.injEq] at hsame
    have hhash := congrArg TokenRow.tokenHash hfixed
    exact hrow (hhash ▸ hsame ▸ heq)

theorem accountTokens_of_undrawn (hstart : ∀ row ∈ s.db.accountTokens, row.tokenHash ≠ hash) :
    ∀ row ∈ t.db.accountTokens, row.tokenHash ≠ hash := by
  apply writes_accountTokens.forall_mem hrun hstart
  · intro a ha row hrow heq
    obtain ⟨raw, hraw, hother⟩ := mem_tokenInserts hrow
    exact hundrawn a ha raw hraw (heq ▸ hother)
  · intro a ha row next hrow hfate heq
    obtain ⟨same, hsame, hfixed, -⟩ := tokenFate_marked a row
    rw [hfate, Option.some.injEq] at hsame
    have hhash := congrArg AccountToken.tokenHash hfixed
    exact hrow (hhash ▸ hsame ▸ heq)

end Undrawn

/-! ## A store with one credential of each kind -/

def sampleToken : AccountToken where
  id := 1
  accountId := 1
  label := str "initial"
  tokenHash := digestIn sampleDigests [97, 48]

def sampleAgent : Agent where
  id := 1
  accountId := 1
  name := str "crawler"
  tokenHash := some (digestIn sampleDigests [114, 48])

def sampleSession : TokenRow where
  id := 1
  tokenHash := digestIn sampleDigests [114, 49]
  kind := .session
  clientId := none
  accountId := 1
  resource := none
  scope := none
  expiresAt := some 9

def sampleAccess : TokenRow where
  id := 2
  tokenHash := digestIn sampleDigests [97, 50]
  kind := .access
  clientId := some (str "c")
  accountId := 1
  resource := some (str "http://localhost:8200/mcp")
  scope := none
  expiresAt := some 9

def sampleStore : Store where
  db := {
    accounts := sampleDb.accounts, agents := [sampleAgent]
    oauthTokens := [sampleSession, sampleAccess], accountTokens := [sampleToken] }
  valid := by decide +kernel

/-- A second token is added and the first one revoked; the session signs out. -/
def rotation : List Write :=
  [.createToken 2 1 (str "ci-runner") none (str "a1"), .revokeLabel 1 (str "initial") 5,
    .signOut (str "r1") 6, .disableAgent (str "crawler") true]

theorem exists_rotated : ∃ t, (credentials sampleProvider 3600).run sampleStore rotation = some t :=
  Option.isSome_iff_exists.mp (by decide +kernel)

/-! ## The lives of the credentials -/

section Lives

variable {actions : List Write} {raw hash : Str} {principal : Principal} {s t : Store}

theorem withdrawsToken_fixed (a : Write) (row : AccountToken) :
    a.withdrawsToken row.fixed = a.withdrawsToken row := by
  cases a <;> rfl

theorem withdrawsOauth_fixed (a : Write) (row : TokenRow) :
    a.withdrawsOauth p (fixedToken row) = a.withdrawsOauth p row := by
  cases a <;> rfl

/-- A token of an account that is live in some state is accepted in a later one exactly when no
statement in between has revoked its label or its account's tokens, it has not expired, and its
account is enabled; the principal has the permissions the account then has. -/
theorem accountToken_accepted_iff {row : AccountToken} (hrow : row ∈ s.db.accountTokens)
    (hlive : row.revokedAt = none) (hhash : p.hashToken raw = .ok row.tokenHash)
    (hagents : ∀ other ∈ s.db.agents, other.tokenHash ≠ some row.tokenHash)
    (hoauth : ∀ other ∈ s.db.oauthTokens, other.tokenHash ≠ row.tokenHash)
    (hundrawn : Undrawn p row.tokenHash actions)
    (hrun : (credentials p sessionTtl).run s actions = some t) :
    (∃ after, resolve p now dbNow t.db raw = .ok (principal, after)) ↔
      (∀ a ∈ actions, a.withdrawsToken row = false) ∧
      (∀ moment, row.expiresAt = some moment → now ≤ moment) ∧
      ∃ account, t.db.Enabled row.accountId account ∧
        principal = accountPrincipal account .token := by
  obtain ⟨last, hlife, hfixed, hmarked⟩ := life_marked AccountToken.fixed
    (fun a row ↦ a.withdrawsToken row = true) (fun row ↦ row.revokedAt.isSome = true)
    tokenFate_marked actions row
  have hlast : last ∈ t.db.accountTokens := writes_accountTokens.mem_of_life hrun hrow hlife
  obtain ⟨hid, hsame, hexpiry⟩ := AccountToken.columns hfixed
  have hspared : last.revokedAt = none ↔ ∀ a ∈ actions, a.withdrawsToken row = false := by
    rw [← Option.not_isSome_iff_eq_none, hmarked, hlive]
    simp [withdrawsToken_fixed]
  rw [resolve_accountToken_iff t.valid hlast (hsame ▸ hhash)
    (hsame ▸ agents_of_undrawn hundrawn hrun hagents)
    (hsame ▸ oauthTokens_of_undrawn hundrawn hrun hoauth), hspared, hexpiry, hid]

theorem accountToken_accepted_iff_rotated : ∃ t,
    (credentials sampleProvider 3600).run sampleStore rotation = some t ∧
    ∀ principal, (∃ after, resolve sampleProvider 7 7 t.db (str "a0") = .ok (principal, after)) ↔
      (∀ a ∈ rotation, a.withdrawsToken sampleToken = false) ∧
      (∀ moment, sampleToken.expiresAt = some moment → 7 ≤ moment) ∧
      ∃ account, t.db.Enabled sampleToken.accountId account ∧
        principal = accountPrincipal account .token := by
  obtain ⟨t, ht⟩ := exists_rotated
  refine ⟨t, ht, fun principal ↦
    accountToken_accepted_iff List.mem_cons_self rfl (by decide +kernel) ?_ ?_ ?_ ht⟩
  · decide +kernel
  · decide +kernel
  · unfold Undrawn
    decide +kernel

/-- What becomes of an OAuth token in a run: it is revoked by the statements that withdraw it. -/
theorem oauthToken_life {row : TokenRow} (hrow : row ∈ s.db.oauthTokens)
    (hlive : row.revokedAt = none) (hrun : (credentials p sessionTtl).run s actions = some t) :
    ∃ last ∈ t.db.oauthTokens, fixedToken last = fixedToken row ∧
      (last.revokedAt = none ↔ ∀ a ∈ actions, a.withdrawsOauth p row = false) := by
  obtain ⟨last, hlife, hfixed, hmarked⟩ := life_marked fixedToken
    (fun a row ↦ a.withdrawsOauth p row = true) (fun row ↦ row.revokedAt.isSome = true)
    oauthFate_marked actions row
  refine ⟨last, writes_oauthTokens.mem_of_life hrun hrow hlife, hfixed, ?_⟩
  rw [← Option.not_isSome_iff_eq_none, hmarked, hlive]
  simp [withdrawsOauth_fixed]

/-- An access token that is live is accepted later exactly when nothing in between has revoked it, it
has not expired, and its account is enabled; its audience, client and scope never change. -/
theorem accessToken_accepted_iff {row : TokenRow} (hrow : row ∈ s.db.oauthTokens)
    (hkind : row.kind = .access) (hlive : row.revokedAt = none)
    (hhash : p.hashToken raw = .ok row.tokenHash)
    (hagents : ∀ other ∈ s.db.agents, other.tokenHash ≠ some row.tokenHash)
    (hundrawn : Undrawn p row.tokenHash actions)
    (hrun : (credentials p sessionTtl).run s actions = some t) :
    (∃ after, resolve p now dbNow t.db raw = .ok (principal, after)) ↔
      (∀ a ∈ actions, a.withdrawsOauth p row = false) ∧
      (∀ moment, row.expiresAt = some moment → now ≤ moment) ∧
      (∀ resource, row.resource = some resource →
        p.canonicalResource resource = p.canonicalResource p.mcpResource) ∧
      ∃ account, t.db.Enabled row.accountId account ∧ principal =
        { accountPrincipal account .oauth with clientId := row.clientId, scope := row.scope } := by
  obtain ⟨last, hlast, hfixed, hspared⟩ := oauthToken_life hrow hlive hrun
  obtain ⟨hsame, hkept, hclient, hid, hresource, hscope, hexpiry⟩ := token_columns hfixed
  rw [resolve_access_iff t.valid hlast (hkept.trans hkind) (hsame ▸ hhash)
    (hsame ▸ agents_of_undrawn hundrawn hrun hagents), hspared, hexpiry, hresource, hid, hclient,
    hscope]

theorem accessToken_accepted_iff_rotated : ∃ t,
    (credentials sampleProvider 3600).run sampleStore rotation = some t ∧
    ∀ principal, (∃ after, resolve sampleProvider 7 7 t.db (str "a2") = .ok (principal, after)) ↔
      (∀ a ∈ rotation, a.withdrawsOauth sampleProvider sampleAccess = false) ∧
      (∀ moment, sampleAccess.expiresAt = some moment → 7 ≤ moment) ∧
      (∀ resource, sampleAccess.resource = some resource →
        sampleProvider.canonicalResource resource =
          sampleProvider.canonicalResource sampleProvider.mcpResource) ∧
      ∃ account, t.db.Enabled sampleAccess.accountId account ∧ principal =
        { accountPrincipal account .oauth with
          clientId := sampleAccess.clientId, scope := sampleAccess.scope } := by
  obtain ⟨t, ht⟩ := exists_rotated
  refine ⟨t, ht, fun principal ↦ accessToken_accepted_iff
    (List.mem_cons_of_mem sampleSession List.mem_cons_self) rfl rfl (by decide +kernel) ?_ ?_ ht⟩
  · decide +kernel
  · unfold Undrawn
    decide +kernel

/-- A session that is live is accepted later exactly when nobody has signed out with it or revoked
what its account was granted, it has not expired, and its account is enabled. -/
theorem session_accepted_iff {row : TokenRow} (hrow : row ∈ s.db.oauthTokens)
    (hkind : row.kind = .session) (hlive : row.revokedAt = none)
    (hhash : p.hashToken raw = .ok row.tokenHash)
    (hrun : (credentials p sessionTtl).run s actions = some t) :
    (∃ after, resolveSession p now dbNow t.db raw = .ok (principal, after)) ↔
      (∀ a ∈ actions, a.withdrawsOauth p row = false) ∧
      (∀ moment, row.expiresAt = some moment → now ≤ moment) ∧
      ∃ account, t.db.Enabled row.accountId account ∧
        principal = accountPrincipal account .session := by
  obtain ⟨last, hlast, hfixed, hspared⟩ := oauthToken_life hrow hlive hrun
  obtain ⟨hsame, hkept, -, hid, -, -, hexpiry⟩ := token_columns hfixed
  rw [resolveSession_iff t.valid hlast (hkept.trans hkind) (hsame ▸ hhash), hspared, hexpiry, hid]

theorem session_accepted_iff_rotated : ∃ t,
    (credentials sampleProvider 3600).run sampleStore rotation = some t ∧
    ∀ principal,
      (∃ after, resolveSession sampleProvider 7 7 t.db (str "r1") = .ok (principal, after)) ↔
      (∀ a ∈ rotation, a.withdrawsOauth sampleProvider sampleSession = false) ∧
      (∀ moment, sampleSession.expiresAt = some moment → 7 ≤ moment) ∧
      ∃ account, t.db.Enabled sampleSession.accountId account ∧
        principal = accountPrincipal account .session := by
  obtain ⟨t, ht⟩ := exists_rotated
  exact ⟨t, ht, fun principal ↦
    session_accepted_iff List.mem_cons_self rfl rfl (by decide +kernel) ht⟩

/-- An agent that holds a hash nobody draws had it from the start and was never given another. -/
theorem agent_traced (hundrawn : Undrawn p hash actions)
    (hrun : (credentials p sessionTtl).run s actions = some t) {agent : Agent}
    (hagent : agent ∈ t.db.agents) (hheld : agent.tokenHash = some hash) :
    ∃ old ∈ s.db.agents, old.tokenHash = some hash ∧ agent.fixed = old.fixed ∧
      ∀ a ∈ actions, a.withdrawsAgent old.name = false := by
  have htrace : ∀ rest, (∀ a ∈ rest, a ∈ actions) → ∀ old,
      life (Write.agentFate p) rest old = some agent → agent.fixed = old.fixed ∧
        old.tokenHash = some hash ∧ ∀ a ∈ rest, ¬ a.withdrawsAgent old.fixed.2.2 = true := by
    intro rest hrest old hlife
    apply life_traced Agent.fixed (fun a key ↦ a.withdrawsAgent key.2.2 = true)
      (fun row ↦ row.tokenHash = some hash) ?_ hlife hheld
    intro a ha row next hfate
    obtain ⟨hfixed, hcases⟩ := agentFate_hash
      (fun raw ↦ exists_hash_of_draw hrun (hrest a ha)) hfate
    refine ⟨hfixed, fun hnext ↦ ?_⟩
    cases hcases with
    | inl hkept =>
      exact ⟨hkept.1 ▸ hnext, fun hhit ↦ Bool.false_ne_true (hkept.2.symm.trans hhit)⟩
    | inr hdrawn =>
      obtain ⟨drawn, other, rfl, hother, hnew⟩ := hdrawn
      rw [hnew, Option.some.injEq] at hnext
      exact absurd (hnext ▸ hother)
        (hundrawn _ (hrest _ ha) drawn (List.mem_singleton_self drawn))
  cases (writes_agents.mem_iff hrun).mp hagent with
  | inl hold =>
    obtain ⟨old, hold, hlife⟩ := hold
    obtain ⟨hfixed, hhad, hspared⟩ := htrace actions (fun _ ha ↦ ha) old hlife
    exact ⟨old, hold, hhad, hfixed, fun a ha ↦ Bool.eq_false_iff.mpr (hspared a ha)⟩
  | inr hnew =>
    obtain ⟨before, a, after, hsplit, new, hnew, hlife⟩ := hnew
    have hlater : ∀ b ∈ after, b ∈ actions := by
      intro b hb
      rw [hsplit]
      exact List.mem_append_right before (List.mem_cons_of_mem a hb)
    have ha : a ∈ actions := by
      rw [hsplit]
      exact List.mem_append_right before List.mem_cons_self
    obtain ⟨-, hhad, -⟩ := htrace after hlater new hlife
    obtain ⟨drawn, hraw, other, hother, hstored⟩ := mem_agentInserts hnew
    rw [hstored, Option.some.injEq] at hhad
    exact absurd (hhad ▸ hother) (hundrawn a ha drawn hraw)

/-- The token of an agent is accepted later exactly when it has not been replaced and the agent has
not been deleted, and the agent and its account are enabled; the grants are those the agent then
has. -/
theorem agentToken_accepted_iff {row : Agent} (hrow : row ∈ s.db.agents)
    (htoken : row.tokenHash = some hash) (hhash : p.hashToken raw = .ok hash)
    (hoauth : ∀ other ∈ s.db.oauthTokens, other.tokenHash ≠ hash)
    (htokens : ∀ other ∈ s.db.accountTokens, other.tokenHash ≠ hash)
    (hundrawn : Undrawn p hash actions)
    (hrun : (credentials p sessionTtl).run s actions = some t) :
    (∃ after, resolve p now dbNow t.db raw = .ok (principal, after)) ↔
      (∀ a ∈ actions, a.withdrawsAgent row.name = false) ∧
      ∃ agent ∈ t.db.agents, agent.fixed = row.fixed ∧ agent.disabled = false ∧
        ∃ account, t.db.Enabled row.accountId account ∧
          principal = agentPrincipal agent account := by
  constructor
  · intro haccepted
    have hfound : ∃ agent ∈ t.db.agents, agent.tokenHash = some hash := by
      by_contra hnone
      refine not_resolved_of_unknown hhash (fun agent hagent hheld ↦ hnone ⟨agent, hagent, hheld⟩)
        (oauthTokens_of_undrawn hundrawn hrun hoauth)
        (accountTokens_of_undrawn hundrawn hrun htokens) haccepted
    obtain ⟨agent, hagent, hheld⟩ := hfound
    obtain ⟨old, hold, hhad, hfixed, hspared⟩ := agent_traced hundrawn hrun hagent hheld
    obtain rfl := s.valid.agent_ext hold hrow hhad htoken
    obtain ⟨henabled, account, haccount, hprincipal⟩ :=
      (resolve_agent_iff t.valid hagent hheld hhash).mp haccepted
    have howner : agent.accountId = old.accountId := congrArg (fun key ↦ key.2.1) hfixed
    exact ⟨hspared, agent, hagent, hfixed, henabled, account, howner ▸ haccount, hprincipal⟩
  · intro h
    obtain ⟨hspared, agent, hagent, hfixed, henabled, account, haccount, hprincipal⟩ := h
    have hfree : ∀ a ∈ actions, ¬ a.withdrawsAgent row.fixed.2.2 = true :=
      fun a ha hhit ↦ Bool.false_ne_true ((hspared a ha).symm.trans hhit)
    obtain ⟨last, hlife, hkey, hheld⟩ := life_spared Agent.fixed
      (fun (a : Write) key ↦ a.withdrawsAgent key.2.2 = true) (fun row ↦ row.tokenHash = some hash)
      (agentFate_spared (p := p)) hfree htoken
    have hlast : last ∈ t.db.agents := writes_agents.mem_of_life hrun hrow hlife
    have hid : agent.id = last.id := congrArg Prod.fst (hfixed.trans hkey.symm)
    obtain rfl : agent = last := eq_of_unique t.valid.agentIds hlast hagent hid
    have howner : agent.accountId = row.accountId := congrArg (fun key ↦ key.2.1) hfixed
    exact (resolve_agent_iff t.valid hagent hheld hhash).mpr
      ⟨henabled, account, howner ▸ haccount, hprincipal⟩

theorem agentToken_accepted_iff_rotated : ∃ t,
    (credentials sampleProvider 3600).run sampleStore rotation = some t ∧
    ∀ principal, (∃ after, resolve sampleProvider 7 7 t.db (str "r0") = .ok (principal, after)) ↔
      (∀ a ∈ rotation, a.withdrawsAgent sampleAgent.name = false) ∧
      ∃ agent ∈ t.db.agents, agent.fixed = sampleAgent.fixed ∧ agent.disabled = false ∧
        ∃ account, t.db.Enabled sampleAgent.accountId account ∧
          principal = agentPrincipal agent account := by
  obtain ⟨t, ht⟩ := exists_rotated
  refine ⟨t, ht, fun principal ↦
    agentToken_accepted_iff List.mem_cons_self rfl (by decide +kernel) ?_ ?_ ?_ ht⟩
  · decide +kernel
  · decide +kernel
  · unfold Undrawn
    decide +kernel

end Lives

end DatumSync.Auth
