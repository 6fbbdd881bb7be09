import DatumSync.OAuth.Tables
import DatumSync.Principal

/-!
# Who a credential stands for

The bearer channel looks a hash up among the agents, the OAuth access tokens and the account tokens,
in this order, and stops at the first store that has it; the cookie channel looks among the
sessions.  A lookup joins the row to its account.
-/

namespace DatumSync.Auth

open Python OAuth

/-- The columns of `service_accounts` a principal is built from; `vault_scope` as `vault_scope_of`
decodes it. -/
structure Account where
  id : ℤ
  name : Str
  maxTier : ℤ
  repoScope : List Str
  isAdmin : Bool
  disabled : Bool
  vaultScope : Option Vault.Scope
  rateLimitPerMin : Option ℤ
  lastUsedAt : Option ℤ := none

structure Agent where
  id : ℤ
  accountId : ℤ
  name : Str
  tokenHash : Option Str
  proxyGrants : List Str := []
  disabled : Bool := false
  lastUsedAt : Option ℤ := none

structure AccountToken where
  id : ℤ
  accountId : ℤ
  label : Str
  tokenHash : Str
  expiresAt : Option ℤ := none
  revokedAt : Option ℤ := none
  lastUsedAt : Option ℤ := none

/-- The tables a credential is looked up in. -/
structure Db where
  accounts : List Account
  agents : List Agent
  oauthTokens : List TokenRow
  accountTokens : List AccountToken

def unauthenticated (message : String) (code : String := "UNAUTHENTICATED") : Exc :=
  .api 401 (str code) (str message) []

/-- `expires_at is not None and expires_at < _now()` -/
def isExpired (now : ℤ) (expiresAt : Option ℤ) : Bool := expiresAt.any (· < now)

namespace Db

variable {R : Type} (db : Db)

/-- `SELECT ... FROM rows JOIN service_accounts a ON a.id = account_id WHERE ...` -/
def joined (accountId : R → ℤ) (p : R → Bool) (rows : List R) : Option (R × Account) :=
  (rows.filter p).findSome? fun row ↦
    (db.accounts.find? fun account ↦ account.id == accountId row).map fun account ↦ (row, account)

def agentOf (hash : Str) : Option (Agent × Account) :=
  db.joined Agent.accountId (fun row ↦ row.tokenHash == some hash) db.agents

/-- The query on `oauth_tokens`, which names one kind. -/
def tokenOf (kind : TokenKind) (hash : Str) : Option (TokenRow × Account) :=
  db.joined TokenRow.accountId (fun row ↦ row.tokenHash == hash && row.kind == kind) db.oauthTokens

def accountTokenOf (hash : Str) : Option (AccountToken × Account) :=
  db.joined AccountToken.accountId (fun row ↦ row.tokenHash == hash) db.accountTokens

/-- `UPDATE agents SET last_used_at = now() WHERE id = $1` -/
def useAgent (dbNow id : ℤ) : Db :=
  { db with agents := db.agents.map fun row ↦
      if row.id = id then { row with lastUsedAt := some dbNow } else row }

/-- `UPDATE oauth_tokens SET last_used_at = now() WHERE id = $1` -/
def useToken (dbNow id : ℤ) : Db :=
  { db with oauthTokens := db.oauthTokens.map fun row ↦
      if row.id = id then { row with lastUsedAt := some dbNow } else row }

/-- `tokens.mark_used`, and `last_used_at` of the account. -/
def useAccountToken (dbNow id accountId : ℤ) : Db :=
  { db with
    accountTokens := db.accountTokens.map fun row ↦
      if row.id = id then { row with lastUsedAt := some dbNow } else row
    accounts := db.accounts.map fun row ↦
      if row.id = accountId then { row with lastUsedAt := some dbNow } else row }

end Db

def agentPrincipal (row : Agent) (account : Account) : Principal where
  accountId := row.accountId
  name := account.name
  maxTier := account.maxTier
  repoScope := account.repoScope
  isAdmin := false
  vaultScope := account.vaultScope
  rateLimitPerMin := account.rateLimitPerMin
  source := .agent
  agentId := some row.id
  agentName := some row.name
  proxyGrants := some row.proxyGrants

def accountPrincipal (account : Account) (source : Source) : Principal where
  accountId := account.id
  name := account.name
  maxTier := account.maxTier
  repoScope := account.repoScope
  isAdmin := account.isAdmin
  vaultScope := account.vaultScope
  rateLimitPerMin := account.rateLimitPerMin
  source := source

variable (p : Provider)

def checkAccess (now : ℤ) (row : TokenRow) (account : Account) : Except Exc Unit :=
  if row.revokedAt.isSome then .error (unauthenticated "token has been revoked" "TOKEN_REVOKED")
  else if isExpired now row.expiresAt then
    .error (unauthenticated "token has expired" "TOKEN_EXPIRED")
  else if account.disabled then
    .error (unauthenticated "account is disabled" "ACCOUNT_DISABLED")
  else if row.resource.any fun resource ↦
      p.canonicalResource resource != p.canonicalResource p.mcpResource then
    .error (unauthenticated "token was not issued for this resource" "WRONG_AUDIENCE")
  else .ok ()

def checkAccountToken (now : ℤ) (row : AccountToken) (account : Account) : Except Exc Unit :=
  if row.revokedAt.isSome then .error (unauthenticated "token has been revoked" "TOKEN_REVOKED")
  else if account.disabled then
    .error (unauthenticated "account is disabled" "ACCOUNT_DISABLED")
  else if isExpired now row.expiresAt then
    .error (unauthenticated "token has expired" "TOKEN_EXPIRED")
  else .ok ()

def checkSession (now : ℤ) (row : TokenRow) (account : Account) : Except Exc Unit :=
  if row.revokedAt.isSome then
    .error (unauthenticated "session has been signed out" "TOKEN_REVOKED")
  else if isExpired now row.expiresAt then
    .error (unauthenticated "session has expired" "TOKEN_EXPIRED")
  else if account.disabled then
    .error (unauthenticated "account is disabled" "ACCOUNT_DISABLED")
  else .ok ()

/-- The last store of `resolve`. -/
def resolveAccountToken (now dbNow : ℤ) (db : Db) (hash : Str) : Except Exc (Principal × Db) :=
  match db.accountTokenOf hash with
  | none => .error (unauthenticated "unknown or invalid token")
  | some (row, account) =>
    match checkAccountToken now row account with
    | .error e => .error e
    | .ok () =>
      .ok (accountPrincipal account .token, db.useAccountToken dbNow row.id account.id)

def resolveToken (now dbNow : ℤ) (db : Db) (hash : Str) : Except Exc (Principal × Db) :=
  match db.tokenOf .access hash with
  | none => resolveAccountToken now dbNow db hash
  | some (row, account) =>
    match checkAccess p now row account with
    | .error e => .error e
    | .ok () =>
      .ok ({ accountPrincipal account .oauth with clientId := row.clientId, scope := row.scope },
        db.useToken dbNow row.id)

def resolveHash (now dbNow : ℤ) (db : Db) (hash : Str) : Except Exc (Principal × Db) :=
  match db.agentOf hash with
  | none => resolveToken p now dbNow db hash
  | some (row, account) =>
    if row.disabled then .error (unauthenticated "agent is disabled" "AGENT_DISABLED")
    else if account.disabled then
      .error (unauthenticated "account is disabled" "ACCOUNT_DISABLED")
    else .ok (agentPrincipal row account, db.useAgent dbNow row.id)

def resolve (now dbNow : ℤ) (db : Db) (raw : Str) : Except Exc (Principal × Db) :=
  match p.hashToken raw with
  | .error e => .error e
  | .ok hash => resolveHash p now dbNow db hash

def resolveSessionHash (now dbNow : ℤ) (db : Db) (hash : Str) : Except Exc (Principal × Db) :=
  match db.tokenOf .session hash with
  | none => .error (unauthenticated "unknown or invalid session")
  | some (row, account) =>
    match checkSession now row account with
    | .error e => .error e
    | .ok () => .ok (accountPrincipal account .session, db.useToken dbNow row.id)

def resolveSession (now dbNow : ℤ) (db : Db) (raw : Str) : Except Exc (Principal × Db) :=
  match p.hashToken raw with
  | .error e => .error e
  | .ok hash => resolveSessionHash now dbNow db hash

/-- `bearer_token`; the scheme is compared without case. -/
def bearerToken (authorization : Option Str) : Option Str :=
  match Proxy.partition (cp ' ') (authorization.getD []) with
  | (scheme, value) =>
    let value := strip (value.getD [])
    if asciiLower scheme = str "bearer" ∧ value ≠ [] then some value else none

/-- `require_auth` for the two headers it reads. -/
def requireAuth (now dbNow : ℤ) (db : Db) (authorization cookie : Option Str)
    (allowCookie : Bool) : Except Exc (Principal × Db) :=
  match bearerToken authorization with
  | some token => resolve p now dbNow db token
  | none =>
    match if allowCookie then cookie else none with
    | none => .error (unauthenticated "missing bearer token")
    | some value =>
      if value = [] then .error (unauthenticated "missing bearer token")
      else resolveSession p now dbNow db value

/-! ## What a principal stands for -/

/-- The permissions of a principal are the columns of its account. -/
structure Account.Backs (account : Account) (principal : Principal) : Prop where
  id : principal.accountId = account.id
  name : principal.name = account.name
  enabled : account.disabled = false
  maxTier : principal.maxTier = account.maxTier
  repoScope : principal.repoScope = account.repoScope
  vaultScope : principal.vaultScope = account.vaultScope
  rateLimit : principal.rateLimitPerMin = account.rateLimitPerMin

/-- What a hash must be for the bearer channel to return a principal. -/
inductive Bears (now : ℤ) (db : Db) (hash : Str) (principal : Principal) : Prop where
  | agent (row : Agent) (account : Account) (hrow : row ∈ db.agents)
      (haccount : account ∈ db.accounts) (howner : account.id = row.accountId)
      (hhash : row.tokenHash = some hash) (henabled : row.disabled = false)
      (hbacks : account.Backs principal) (hagent : principal.agentId = some row.id)
      (hadmin : principal.isAdmin = false)
  | access (row : TokenRow) (account : Account) (hrow : row ∈ db.oauthTokens)
      (haccount : account ∈ db.accounts) (howner : account.id = row.accountId)
      (hhash : row.tokenHash = hash) (hkind : row.kind = .access) (hlive : row.revokedAt = none)
      (hexpiry : ∀ moment, row.expiresAt = some moment → now ≤ moment)
      (haudience : ∀ resource, row.resource = some resource →
        p.canonicalResource resource = p.canonicalResource p.mcpResource)
      (hbacks : account.Backs principal) (hagent : principal.agentId = none)
      (hadmin : principal.isAdmin = account.isAdmin)
  | account (row : AccountToken) (account : Account) (hrow : row ∈ db.accountTokens)
      (haccount : account ∈ db.accounts) (howner : account.id = row.accountId)
      (hhash : row.tokenHash = hash) (hlive : row.revokedAt = none)
      (hexpiry : ∀ moment, row.expiresAt = some moment → now ≤ moment)
      (hbacks : account.Backs principal) (hagent : principal.agentId = none)
      (hadmin : principal.isAdmin = account.isAdmin)

/-- What a hash must be for the cookie channel to return a principal. -/
inductive SignedIn (now : ℤ) (db : Db) (hash : Str) (principal : Principal) : Prop where
  | session (row : TokenRow) (account : Account) (hrow : row ∈ db.oauthTokens)
      (haccount : account ∈ db.accounts) (howner : account.id = row.accountId)
      (hhash : row.tokenHash = hash) (hkind : row.kind = .session) (hlive : row.revokedAt = none)
      (hexpiry : ∀ moment, row.expiresAt = some moment → now ≤ moment)
      (hbacks : account.Backs principal) (hagent : principal.agentId = none)
      (hadmin : principal.isAdmin = account.isAdmin)

/-- The OAuth tokens of one kind alone. -/
def Db.only (db : Db) (kind : TokenKind) : Db :=
  { db with oauthTokens := db.oauthTokens.filter fun row ↦ row.kind == kind }

/-- What the two channels promise for a text that is presented to them. -/
structure Sound (now dbNow : ℤ) (db : Db) (raw : Str) : Prop where
  bearer : ∀ principal after, resolve p now dbNow db raw = .ok (principal, after) →
    ∃ hash, p.hashToken raw = .ok hash ∧ Bears p now db hash principal
  cookie : ∀ principal after, resolveSession p now dbNow db raw = .ok (principal, after) →
    ∃ hash, p.hashToken raw = .ok hash ∧ SignedIn now db hash principal
  /-- A refresh token or a session that is no other credential is not accepted as a bearer. -/
  notBearer : (∀ row ∈ db.agents, ∀ hash, row.tokenHash = some hash → p.hashToken raw ≠ .ok hash) →
    (∀ row ∈ db.accountTokens, p.hashToken raw ≠ .ok row.tokenHash) →
    (∀ row ∈ db.oauthTokens, p.hashToken raw = .ok row.tokenHash → row.kind ≠ .access) →
    ∃ e, resolve p now dbNow db raw = .error e
  /-- An access or refresh token is not accepted as a cookie. -/
  notCookie : (∀ row ∈ db.oauthTokens, p.hashToken raw = .ok row.tokenHash → row.kind ≠ .session) →
    ∃ e, resolveSession p now dbNow db raw = .error e
  /-- Other tokens do not matter to the bearer channel, whatever their hashes are. -/
  bearerKind : (resolve p now dbNow db raw).map Prod.fst =
    (resolve p now dbNow (db.only .access) raw).map Prod.fst
  cookieKind : (resolveSession p now dbNow db raw).map Prod.fst =
    (resolveSession p now dbNow (db.only .session) raw).map Prod.fst

variable {p} {now dbNow : ℤ} {db : Db} {hash raw : Str} {principal : Principal} {after : Db}

theorem Db.joined_eq_some {R : Type} {accountId : R → ℤ} {f : R → Bool} {rows : List R} {row : R}
    {account : Account} (h : db.joined accountId f rows = some (row, account)) :
    row ∈ rows ∧ f row = true ∧ account ∈ db.accounts ∧ account.id = accountId row := by
  obtain ⟨found, hfound, hjoin⟩ := List.exists_of_findSome?_eq_some h
  obtain ⟨owner, howner, hpair⟩ := Option.map_eq_some_iff.mp hjoin
  obtain ⟨rfl, rfl⟩ := Prod.mk.inj hpair
  obtain ⟨hrow, hf⟩ := List.mem_filter.mp hfound
  have hid := List.find?_some howner
  exact ⟨hrow, hf, List.mem_of_find?_eq_some howner, eq_of_beq hid⟩

theorem Db.tokenOf_eq_some {kind : TokenKind} {row : TokenRow} {account : Account}
    (h : db.tokenOf kind hash = some (row, account)) :
    row ∈ db.oauthTokens ∧ (row.tokenHash = hash ∧ row.kind = kind) ∧ account ∈ db.accounts ∧
      account.id = row.accountId := by
  obtain ⟨hrow, hf, haccount⟩ := Db.joined_eq_some h
  rw [Bool.and_eq_true, beq_iff_eq, beq_iff_eq] at hf
  exact ⟨hrow, hf, haccount⟩

theorem isExpired_eq_false {expiresAt : Option ℤ} (h : ¬ isExpired now expiresAt = true) :
    ∀ moment, expiresAt = some moment → now ≤ moment := by
  rintro moment rfl
  rw [isExpired, Option.any_some, decide_eq_true_iff] at h
  exact not_lt.mp h

theorem backs_accountPrincipal {account : Account} (henabled : account.disabled = false)
    (source : Source) : account.Backs (accountPrincipal account source) :=
  ⟨rfl, rfl, henabled, rfl, rfl, rfl, rfl⟩

/-- What the checks of an access token let through. -/
theorem checkAccess_ok {row : TokenRow} {account : Account}
    (h : checkAccess p now row account = .ok ()) :
    row.revokedAt = none ∧ (∀ moment, row.expiresAt = some moment → now ≤ moment) ∧
      account.disabled = false ∧ ∀ resource, row.resource = some resource →
        p.canonicalResource resource = p.canonicalResource p.mcpResource := by
  unfold checkAccess at h
  split at h
  · cases h
  · next hlive =>
    split at h
    · cases h
    · next hexpiry =>
      split at h
      · cases h
      · next henabled =>
        split at h
        · cases h
        · next haudience =>
          refine ⟨Option.not_isSome_iff_eq_none.mp hlive, isExpired_eq_false hexpiry,
            Bool.not_eq_true _ ▸ henabled, ?_⟩
          intro resource hresource
          rw [hresource, Option.any_some, bne_iff_ne, ne_eq, not_not] at haudience
          exact haudience

theorem checkAccountToken_ok {row : AccountToken} {account : Account}
    (h : checkAccountToken now row account = .ok ()) :
    row.revokedAt = none ∧ (∀ moment, row.expiresAt = some moment → now ≤ moment) ∧
      account.disabled = false := by
  unfold checkAccountToken at h
  split at h
  · cases h
  · next hlive =>
    split at h
    · cases h
    · next henabled =>
      split at h
      · cases h
      · next hexpiry =>
        exact ⟨Option.not_isSome_iff_eq_none.mp hlive, isExpired_eq_false hexpiry,
          Bool.not_eq_true _ ▸ henabled⟩

theorem checkSession_ok {row : TokenRow} {account : Account}
    (h : checkSession now row account = .ok ()) :
    row.revokedAt = none ∧ (∀ moment, row.expiresAt = some moment → now ≤ moment) ∧
      account.disabled = false := by
  unfold checkSession at h
  split at h
  · cases h
  · next hlive =>
    split at h
    · cases h
    · next hexpiry =>
      split at h
      · cases h
      · next henabled =>
        exact ⟨Option.not_isSome_iff_eq_none.mp hlive, isExpired_eq_false hexpiry,
          Bool.not_eq_true _ ▸ henabled⟩

/-! ## Soundness, store by store -/

theorem resolveAccountToken_sound
    (h : resolveAccountToken now dbNow db hash = .ok (principal, after)) :
    Bears p now db hash principal := by
  unfold resolveAccountToken at h
  split at h
  · cases h
  · next row account hfound =>
    obtain ⟨hrow, hhash, haccount, howner⟩ := Db.joined_eq_some hfound
    split at h
    · cases h
    · next hchecked =>
      obtain ⟨hlive, hexpiry, henabled⟩ := checkAccountToken_ok hchecked
      obtain ⟨rfl, rfl⟩ := Prod.mk.inj (Except.ok.inj h)
      exact .account row account hrow haccount howner (eq_of_beq hhash) hlive hexpiry
        (backs_accountPrincipal henabled .token) rfl rfl

theorem resolveToken_sound (h : resolveToken p now dbNow db hash = .ok (principal, after)) :
    Bears p now db hash principal := by
  unfold resolveToken at h
  split at h
  · exact resolveAccountToken_sound h
  · next row account hfound =>
    obtain ⟨hrow, ⟨hhash, hkind⟩, haccount, howner⟩ := Db.tokenOf_eq_some hfound
    split at h
    · cases h
    · next hchecked =>
      obtain ⟨hlive, hexpiry, henabled, haudience⟩ := checkAccess_ok hchecked
      obtain ⟨rfl, rfl⟩ := Prod.mk.inj (Except.ok.inj h)
      exact .access row account hrow haccount howner hhash hkind hlive hexpiry haudience
        ⟨rfl, rfl, henabled, rfl, rfl, rfl, rfl⟩ rfl rfl

theorem resolveHash_sound (h : resolveHash p now dbNow db hash = .ok (principal, after)) :
    Bears p now db hash principal := by
  unfold resolveHash at h
  split at h
  · exact resolveToken_sound h
  · next row account hfound =>
    obtain ⟨hrow, hhash, haccount, howner⟩ := Db.joined_eq_some hfound
    split at h
    · cases h
    · next hagent =>
      split at h
      · cases h
      · next henabled =>
        obtain ⟨rfl, rfl⟩ := Prod.mk.inj (Except.ok.inj h)
        rw [Bool.not_eq_true] at hagent henabled
        exact .agent row account hrow haccount howner (eq_of_beq hhash) hagent
          ⟨howner.symm, rfl, henabled, rfl, rfl, rfl, rfl⟩ rfl rfl

theorem resolveSessionHash_sound
    (h : resolveSessionHash now dbNow db hash = .ok (principal, after)) :
    SignedIn now db hash principal := by
  unfold resolveSessionHash at h
  split at h
  · cases h
  · next row account hfound =>
    obtain ⟨hrow, ⟨hhash, hkind⟩, haccount, howner⟩ := Db.tokenOf_eq_some hfound
    split at h
    · cases h
    · next hchecked =>
      obtain ⟨hlive, hexpiry, henabled⟩ := checkSession_ok hchecked
      obtain ⟨rfl, rfl⟩ := Prod.mk.inj (Except.ok.inj h)
      exact .session row account hrow haccount howner hhash hkind hlive hexpiry
        (backs_accountPrincipal henabled .session) rfl rfl

/-! ## Kinds that do not matter -/

theorem tokenOf_only (kind : TokenKind) :
    (db.only kind).tokenOf kind hash = db.tokenOf kind hash := by
  have hrows : (db.oauthTokens.filter fun row ↦ row.kind == kind).filter
      (fun row ↦ row.tokenHash == hash && row.kind == kind) =
      db.oauthTokens.filter fun row ↦ row.tokenHash == hash && row.kind == kind := by
    rw [List.filter_filter]
    apply List.filter_congr
    intro row _
    rw [Bool.and_assoc, Bool.and_self]
  unfold Db.tokenOf Db.joined
  change List.findSome? _ ((db.oauthTokens.filter fun row ↦ row.kind == kind).filter _) = _
  rw [hrows]
  rfl

/-- The bearer channel reads no OAuth token but the access tokens. -/
theorem resolve_only_access :
    (resolve p now dbNow db raw).map Prod.fst =
      (resolve p now dbNow (db.only .access) raw).map Prod.fst := by
  unfold resolve
  cases p.hashToken raw with
  | error e => rfl
  | ok hash =>
    dsimp only
    unfold resolveHash
    rw [show (db.only .access).agentOf hash = db.agentOf hash from rfl]
    cases db.agentOf hash with
    | some found =>
      dsimp only
      split
      · rfl
      · split <;> rfl
    | none =>
      dsimp only
      unfold resolveToken
      rw [tokenOf_only]
      cases db.tokenOf .access hash with
      | some found =>
        dsimp only
        split <;> rfl
      | none =>
        dsimp only
        unfold resolveAccountToken
        rw [show (db.only .access).accountTokenOf hash = db.accountTokenOf hash from rfl]
        cases db.accountTokenOf hash with
        | none => rfl
        | some found =>
          dsimp only
          split <;> rfl

/-- The cookie channel reads no OAuth token but the sessions. -/
theorem resolveSession_only_session :
    (resolveSession p now dbNow db raw).map Prod.fst =
      (resolveSession p now dbNow (db.only .session) raw).map Prod.fst := by
  unfold resolveSession
  cases p.hashToken raw with
  | error e => rfl
  | ok hash =>
    dsimp only
    unfold resolveSessionHash
    rw [tokenOf_only]
    cases db.tokenOf .session hash with
    | none => rfl
    | some found =>
      dsimp only
      split <;> rfl

/-! ## Soundness -/

theorem resolve_sound (h : resolve p now dbNow db raw = .ok (principal, after)) :
    ∃ hash, p.hashToken raw = .ok hash ∧ Bears p now db hash principal := by
  unfold resolve at h
  cases hhash : p.hashToken raw with
  | error e =>
    rw [hhash] at h
    cases h
  | ok hash =>
    rw [hhash] at h
    exact ⟨hash, rfl, resolveHash_sound h⟩

theorem resolveSession_sound (h : resolveSession p now dbNow db raw = .ok (principal, after)) :
    ∃ hash, p.hashToken raw = .ok hash ∧ SignedIn now db hash principal := by
  unfold resolveSession at h
  cases hhash : p.hashToken raw with
  | error e =>
    rw [hhash] at h
    cases h
  | ok hash =>
    rw [hhash] at h
    exact ⟨hash, rfl, resolveSessionHash_sound h⟩

/-- A request is let in for what its bearer token stands for, or, where cookies are allowed, its
session. -/
theorem requireAuth_sound {authorization cookie : Option Str} {allowCookie : Bool}
    (h : requireAuth p now dbNow db authorization cookie allowCookie = .ok (principal, after)) :
    ∃ raw hash, p.hashToken raw = .ok hash ∧
      (bearerToken authorization = some raw ∧ Bears p now db hash principal ∨
        allowCookie = true ∧ cookie = some raw ∧ SignedIn now db hash principal) := by
  unfold requireAuth at h
  split at h
  · next token htoken =>
    obtain ⟨hash, hhash, hbears⟩ := resolve_sound h
    exact ⟨token, hash, hhash, .inl ⟨htoken, hbears⟩⟩
  · split at h
    · cases h
    · next value hvalue =>
      split at h
      · cases h
      · obtain ⟨hash, hhash, hsigned⟩ := resolveSession_sound h
        cases allowCookie with
        | false => cases hvalue
        | true => exact ⟨value, hash, hhash, .inr ⟨rfl, hvalue, hsigned⟩⟩

/-- A principal is returned for a valid credential of the channel alone, with the current
permissions of its account. -/
theorem credentials_sound (p : Provider) (now dbNow : ℤ) (db : Db) (raw : Str) :
    Sound p now dbNow db raw where
  bearer _ _ := resolve_sound
  cookie _ _ := resolveSession_sound
  notBearer hagents haccounts htokens := by
    cases hresult : resolve p now dbNow db raw with
    | error e => exact ⟨e, rfl⟩
    | ok found =>
      obtain ⟨hash, hhash, hbears⟩ := resolve_sound hresult
      cases hbears with
      | agent row _ hrow _ _ htoken => exact absurd hhash (hagents row hrow hash htoken)
      | access row _ hrow _ _ htoken hkind =>
        exact absurd hkind (htokens row hrow (htoken ▸ hhash))
      | account row _ hrow _ _ htoken => exact absurd (htoken ▸ hhash) (haccounts row hrow)
  notCookie htokens := by
    cases hresult : resolveSession p now dbNow db raw with
    | error e => exact ⟨e, rfl⟩
    | ok found =>
      obtain ⟨hash, hhash, hsigned⟩ := resolveSession_sound hresult
      cases hsigned with
      | session row _ hrow _ _ htoken hkind =>
        exact absurd hkind (htokens row hrow (htoken ▸ hhash))
  bearerKind := resolve_only_access
  cookieKind := resolveSession_only_session

/-- An account with a token `a0` and a session `r0`. -/
def sampleDb : Db where
  accounts := [{
    id := 1, name := str "scimac", maxTier := 2, repoScope := [str "SCIMAC/*"], isAdmin := false
    disabled := false, vaultScope := none, rateLimitPerMin := some 60 }]
  agents := []
  oauthTokens := [{
    id := 1, tokenHash := digestIn sampleDigests [114, 48], kind := .session, clientId := none
    accountId := 1, resource := none, scope := none, expiresAt := some 9 }]
  accountTokens := [{
    id := 1, accountId := 1, label := str "initial", tokenHash := digestIn sampleDigests [97, 48] }]

example : ((resolve sampleProvider 5 5 sampleDb (str "a0")).toOption.map fun found ↦
    (found.1.accountId, found.1.source, found.1.maxTier)) = some (1, .token, 2) := by
  decide +kernel

example : (resolve sampleProvider 5 5 sampleDb (str "r0")).toOption.isNone = true ∧
    ((resolveSession sampleProvider 5 5 sampleDb (str "r0")).toOption.map fun found ↦
      found.1.source) = some .session := by
  decide +kernel

end DatumSync.Auth
