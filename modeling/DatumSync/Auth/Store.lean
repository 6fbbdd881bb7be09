import DatumSync.Auth.Credentials
import DatumSync.Foundation.Statements

/-!
# The statements that write the credential tables

Everything that writes accounts, their tokens, agents, sessions or OAuth tokens, one committed
statement or transaction at a time, so that a run is any interleaving of the commands, requests and
sign-ins that issue them.  The number a serial column gives is part of the action.  A statement that
would break a constraint raises and is no step.
-/

namespace DatumSync.Auth

open Foundation OAuth Python

/-- The constraints of the tables: primary keys, unique columns, the live labels, references. -/
structure Db.Valid (db : Db) : Prop where
  accountIds : (db.accounts.map Account.id).Nodup
  accountNames : (db.accounts.map Account.name).Nodup
  agentIds : (db.agents.map Agent.id).Nodup
  agentNames : (db.agents.map Agent.name).Nodup
  agentHashes : (db.agents.filterMap Agent.tokenHash).Nodup
  oauthIds : (db.oauthTokens.map TokenRow.id).Nodup
  oauthHashes : (db.oauthTokens.map TokenRow.tokenHash).Nodup
  tokenIds : (db.accountTokens.map AccountToken.id).Nodup
  tokenHashes : (db.accountTokens.map AccountToken.tokenHash).Nodup
  /-- `account_tokens_live_label_idx` -/
  liveLabels : ((db.accountTokens.filter fun row ↦ row.revokedAt.isNone).map fun row ↦
    (row.accountId, row.label)).Nodup
  agentOwners : ∀ row ∈ db.agents, row.accountId ∈ db.accounts.map Account.id
  oauthOwners : ∀ row ∈ db.oauthTokens, row.accountId ∈ db.accounts.map Account.id
  tokenOwners : ∀ row ∈ db.accountTokens, row.accountId ∈ db.accounts.map Account.id
  tiers : ∀ row ∈ db.accounts, 1 ≤ row.maxTier ∧ row.maxTier ≤ 5

theorem Db.valid_iff (db : Db) : db.Valid ↔
    ((db.accounts.map Account.id).Nodup ∧ (db.accounts.map Account.name).Nodup ∧
      (db.agents.map Agent.id).Nodup ∧ (db.agents.map Agent.name).Nodup ∧
      (db.agents.filterMap Agent.tokenHash).Nodup) ∧
    ((db.oauthTokens.map TokenRow.id).Nodup ∧ (db.oauthTokens.map TokenRow.tokenHash).Nodup ∧
      (db.accountTokens.map AccountToken.id).Nodup ∧
      (db.accountTokens.map AccountToken.tokenHash).Nodup ∧
      ((db.accountTokens.filter fun row ↦ row.revokedAt.isNone).map fun row ↦
        (row.accountId, row.label)).Nodup) ∧
    ((∀ row ∈ db.agents, row.accountId ∈ db.accounts.map Account.id) ∧
      (∀ row ∈ db.oauthTokens, row.accountId ∈ db.accounts.map Account.id) ∧
      (∀ row ∈ db.accountTokens, row.accountId ∈ db.accounts.map Account.id) ∧
      ∀ row ∈ db.accounts, 1 ≤ row.maxTier ∧ row.maxTier ≤ 5) := by
  constructor
  · intro h
    exact ⟨⟨h.accountIds, h.accountNames, h.agentIds, h.agentNames, h.agentHashes⟩,
      ⟨h.oauthIds, h.oauthHashes, h.tokenIds, h.tokenHashes, h.liveLabels⟩,
      h.agentOwners, h.oauthOwners, h.tokenOwners, h.tiers⟩
  · intro h
    obtain ⟨⟨h1, h2, h3, h4, h5⟩, ⟨h6, h7, h8, h9, h10⟩, h11, h12, h13, h14⟩ := h
    exact ⟨h1, h2, h3, h4, h5, h6, h7, h8, h9, h10, h11, h12, h13, h14⟩

instance (db : Db) : Decidable db.Valid := decidable_of_iff _ db.valid_iff.symm

/-- The tables, which keep their constraints. -/
structure Store where
  db : Db
  valid : db.Valid

/-! ## `accounts` and the account routes -/

def Db.updateAccounts (db : Db) (p : Account → Bool) (f : Account → Account) : Db :=
  { db with accounts := db.accounts.map fun row ↦ if p row then f row else row }

def tokenRow (p : Provider) (id accountId : ℤ) (label : Str) (expiresAt : Option ℤ) (raw : Str) :
    List AccountToken :=
  match p.hashToken raw with
  | .error _ => []
  | .ok hash => [{
      id := id, accountId := accountId, label := label, tokenHash := hash, expiresAt := expiresAt }]

namespace Accounts

def initialLabel : Str := str "initial"

def scopes (values : List Str) : List Str := if values = [] then [str "*"] else values

def row (id : ℤ) (name : Str) (values : List Str) (maxTier : ℤ) (admin : Bool)
    (vaultScope : Option Vault.Scope) : Account where
  id := id
  name := name
  maxTier := maxTier
  repoScope := scopes values
  isAdmin := admin
  disabled := false
  vaultScope := vaultScope
  rateLimitPerMin := none

/-- `accounts.create`, one transaction, for a vault scope that is valid. -/
def create (p : Provider) (id tokenId : ℤ) (name : Str) (values : List Str) (maxTier : ℤ)
    (admin : Bool) (vaultScope : Option Vault.Scope) (raw : Str) (db : Db) : Db :=
  { db with
    accounts := db.accounts ++ [row id name values maxTier admin vaultScope]
    accountTokens := db.accountTokens ++ tokenRow p tokenId id initialLabel none raw }

def disable (name : Str) (value : Bool) (db : Db) : Db :=
  db.updateAccounts (fun row ↦ row.name == name) fun row ↦ { row with disabled := value }

def rateLimit (name : Str) (perMin : Option ℤ) (db : Db) : Db :=
  db.updateAccounts (fun row ↦ row.name == name) fun row ↦ { row with rateLimitPerMin := perMin }

/-- `update_account`: the columns of the request that are given. -/
def update (name : Str) (disabled : Option Bool) (maxTier : Option ℤ) (db : Db) : Db :=
  db.updateAccounts (fun row ↦ row.name == name) fun row ↦
    { row with disabled := disabled.getD row.disabled, maxTier := maxTier.getD row.maxTier }

/-- `UPDATE service_accounts SET last_used_at = now() WHERE id = $1` -/
def markUsed (id dbNow : ℤ) (db : Db) : Db :=
  db.updateAccounts (fun row ↦ row.id == id) fun row ↦ { row with lastUsedAt := some dbNow }

end Accounts

/-! ## `tokens` -/

def Db.updateAccountTokens (db : Db) (p : AccountToken → Bool) (f : AccountToken → AccountToken) :
    Db :=
  { db with accountTokens := db.accountTokens.map fun row ↦ if p row then f row else row }

def AccountToken.revoke (dbNow : ℤ) (row : AccountToken) : AccountToken :=
  { row with revokedAt := some dbNow }

namespace Tokens

def create (p : Provider) (id accountId : ℤ) (label : Str) (expiresAt : Option ℤ) (raw : Str)
    (db : Db) : Db :=
  { db with accountTokens := db.accountTokens ++ tokenRow p id accountId label expiresAt raw }

/-- The rows `tokens.revoke` is for. -/
def isNamed (accountId : ℤ) (label : Str) (row : AccountToken) : Bool :=
  row.accountId == accountId && row.label == label && row.revokedAt.isNone

/-- `tokens.revoke`: whether a live token was revoked, and the tables. -/
def revoke (accountId : ℤ) (label : Str) (dbNow : ℤ) (db : Db) : Bool × Db :=
  (db.accountTokens.any (isNamed accountId label),
    db.updateAccountTokens (isNamed accountId label) (AccountToken.revoke dbNow))

/-- The rows `tokens.revoke_all` is for. -/
def isLiveOf (accountId : ℤ) (row : AccountToken) : Bool :=
  row.accountId == accountId && row.revokedAt.isNone

/-- `tokens.revoke_all`: how many were revoked, and the tables. -/
def revokeAll (accountId dbNow : ℤ) (db : Db) : ℕ × Db :=
  (db.accountTokens.countP (isLiveOf accountId),
    db.updateAccountTokens (isLiveOf accountId) (AccountToken.revoke dbNow))

def markUsed (id dbNow : ℤ) (db : Db) : Db :=
  db.updateAccountTokens (fun row ↦ row.id == id) fun row ↦ { row with lastUsedAt := some dbNow }

end Tokens

/-! ## `agents` -/

def Db.updateAgents (db : Db) (p : Agent → Bool) (f : Agent → Agent) : Db :=
  { db with agents := db.agents.map fun row ↦ if p row then f row else row }

namespace Agents

def row (p : Provider) (id accountId : ℤ) (name : Str) (proxyGrants : List Str) (raw : Str) :
    List Agent :=
  match p.hashToken raw with
  | .error _ => []
  | .ok hash => [{
      id := id, accountId := accountId, name := name, tokenHash := some hash
      proxyGrants := proxyGrants }]

def create (p : Provider) (id accountId : ℤ) (name : Str) (proxyGrants : List Str) (raw : Str)
    (db : Db) : Db :=
  { db with agents := db.agents ++ row p id accountId name proxyGrants raw }

def updateGrants (name : Str) (proxyGrants : List Str) (db : Db) : Db :=
  db.updateAgents (fun row ↦ row.name == name) fun row ↦ { row with proxyGrants := proxyGrants }

/-- `SET token_hash = $2`, where the text can be hashed. -/
def withToken (p : Provider) (raw : Str) (row : Agent) : Agent :=
  match p.hashToken raw with
  | .error _ => row
  | .ok hash => { row with tokenHash := some hash }

def mintToken (p : Provider) (name raw : Str) (db : Db) : Db :=
  db.updateAgents (fun row ↦ row.name == name) (withToken p raw)

def disable (name : Str) (value : Bool) (db : Db) : Db :=
  db.updateAgents (fun row ↦ row.name == name) fun row ↦ { row with disabled := value }

def delete (name : Str) (db : Db) : Db :=
  { db with agents := db.agents.filter fun row ↦ row.name != name }

/-- `UPDATE agents SET last_used_at = now() WHERE id = $1` -/
def markUsed (id dbNow : ℤ) (db : Db) : Db :=
  db.updateAgents (fun row ↦ row.id == id) fun row ↦ { row with lastUsedAt := some dbNow }

end Agents

/-! ## Sessions and the tokens of the authorization server -/

def Db.updateTokens (db : Db) (p : TokenRow → Bool) (f : TokenRow → TokenRow) : Db :=
  { db with oauthTokens := db.oauthTokens.map fun row ↦ if p row then f row else row }

def sessionRow (p : Provider) (sessionTtl id accountId : ℤ) (raw : Str) (dbNow : ℤ) :
    List TokenRow :=
  match p.hashToken raw with
  | .error _ => []
  | .ok hash => [{
      id := id, tokenHash := hash, kind := .session, clientId := none, accountId := accountId
      resource := none, scope := none, expiresAt := some (dbNow + sessionTtl * 1000000) }]

def createSession (p : Provider) (sessionTtl id accountId : ℤ) (raw : Str) (dbNow : ℤ) (db : Db) :
    Db :=
  { db with oauthTokens := db.oauthTokens ++ sessionRow p sessionTtl id accountId raw dbNow }

def isSessionOf (p : Provider) (raw : Str) (row : TokenRow) : Bool :=
  decide (p.hashToken raw = .ok row.tokenHash) && row.kind == .session && row.revokedAt.isNone

def revokeSession (p : Provider) (raw : Str) (dbNow : ℤ) (db : Db) : Db :=
  db.updateTokens (isSessionOf p raw) (TokenRow.revoke dbNow)

structure GrantFor where
  clientId : Str
  accountId : ℤ
  resource : Option Str
  scope : Option Str

def mintRows (p : Provider) (nextId : ℤ) (grant : GrantFor) (access refresh : Str) (now : ℤ) :
    List TokenRow :=
  match p.hashToken access, p.hashToken refresh with
  | .ok accessHash, .ok refreshHash =>
    p.mintedRows now nextId accessHash refreshHash grant.clientId grant.accountId grant.resource
      grant.scope
  | _, _ => []

def mintTokens (p : Provider) (nextId : ℤ) (grant : GrantFor) (access refresh : Str) (now : ℤ)
    (db : Db) : Db :=
  { db with oauthTokens := db.oauthTokens ++ mintRows p nextId grant access refresh now }

/-- The transaction of `_rotate_refresh_txn` once its checks have passed. -/
def rotateTokens (p : Provider) (id nextId : ℤ) (grant : GrantFor) (access refresh : Str)
    (now dbNow : ℤ) (db : Db) : Db :=
  mintTokens p nextId grant access refresh now
    (db.updateTokens (fun row ↦ row.id == id) (TokenRow.rotate dbNow (some (nextId + 1))))

/-- `_revoke_family`; `seen` are the rows that were committed when the statement began. -/
def revokeFamilyOf (clientId : Str) (accountId : ℤ) (seen : List ℤ) (dbNow : ℤ) (db : Db) : Db :=
  db.updateTokens (fun row ↦ row.inFamily clientId accountId && seen.contains row.id)
    (TokenRow.revoke dbNow)

/-- `revoke_grants`; `seen` are the rows that were committed when the statement began. -/
def revokeGrants (accountId : ℤ) (seen : List ℤ) (dbNow : ℤ) (db : Db) : Db :=
  db.updateTokens
    (fun row ↦ row.accountId == accountId && row.revokedAt.isNone && seen.contains row.id)
    (TokenRow.revoke dbNow)

/-- The rows the `revoke` endpoint is for. -/
def isTokenOf (p : Provider) (token clientId : Str) (row : TokenRow) : Bool :=
  decide (p.hashToken token = .ok row.tokenHash) && row.clientId == some clientId &&
    row.revokedAt.isNone

/-- The `revoke` endpoint, for a client that it has authenticated. -/
def revokeToken (p : Provider) (clientId token : Str) (dbNow : ℤ) (db : Db) : Db :=
  db.updateTokens (isTokenOf p token clientId) (TokenRow.revoke dbNow)

/-- `UPDATE oauth_tokens SET last_used_at = now() WHERE id = $1` -/
def markTokenUsed (id dbNow : ℤ) (db : Db) : Db :=
  db.updateTokens (fun row ↦ row.id == id) fun row ↦ { row with lastUsedAt := some dbNow }

/-! ## The machine -/

/-- A statement or transaction, with what it draws and is given. -/
inductive Write where
  | createAccount (id tokenId : ℤ) (name : Str) (values : List Str) (maxTier : ℤ) (admin : Bool)
      (vaultScope : Option Vault.Scope) (raw : Str)
  | disableAccount (name : Str) (value : Bool)
  | rateLimit (name : Str) (perMin : Option ℤ)
  | updateAccount (name : Str) (disabled : Option Bool) (maxTier : Option ℤ)
  | useAccount (id dbNow : ℤ)
  | createToken (id accountId : ℤ) (label : Str) (expiresAt : Option ℤ) (raw : Str)
  | revokeLabel (accountId : ℤ) (label : Str) (dbNow : ℤ)
  | revokeAll (accountId dbNow : ℤ)
  | useAccountToken (id dbNow : ℤ)
  | createAgent (id accountId : ℤ) (name : Str) (proxyGrants : List Str) (raw : Str)
  | updateGrants (name : Str) (proxyGrants : List Str)
  | mintAgentToken (name raw : Str)
  | disableAgent (name : Str) (value : Bool)
  | deleteAgent (name : Str)
  | useAgent (id dbNow : ℤ)
  | signIn (id accountId : ℤ) (raw : Str) (dbNow : ℤ)
  | signOut (raw : Str) (dbNow : ℤ)
  | mint (nextId : ℤ) (grant : GrantFor) (access refresh : Str) (now : ℤ)
  | rotate (id nextId : ℤ) (grant : GrantFor) (access refresh : Str) (now dbNow : ℤ)
  | revokeFamily (clientId : Str) (accountId : ℤ) (seen : List ℤ) (dbNow : ℤ)
  | revokeGrants (accountId : ℤ) (seen : List ℤ) (dbNow : ℤ)
  | revokeToken (clientId token : Str) (dbNow : ℤ)
  | useToken (id dbNow : ℤ)

namespace Write

/-- The raw values that `new_token` gives to a statement. -/
def draws : Write → List Str
  | createAccount _ _ _ _ _ _ _ raw => [raw]
  | createToken _ _ _ _ raw => [raw]
  | createAgent _ _ _ _ raw => [raw]
  | mintAgentToken _ raw => [raw]
  | signIn _ _ raw _ => [raw]
  | mint _ _ access refresh _ => [access, refresh]
  | rotate _ _ _ access refresh _ _ => [access, refresh]
  | _ => []

/-- The texts that are hashed for a statement. -/
def hashed : Write → List Str
  | signOut raw _ => [raw]
  | revokeToken _ token _ => [token]
  | a => a.draws

variable (p : Provider) (sessionTtl : ℤ)

/-- What a statement makes of the tables. -/
def on (db : Db) : Write → Db
  | createAccount id tokenId name values maxTier admin vaultScope raw =>
    Accounts.create p id tokenId name values maxTier admin vaultScope raw db
  | disableAccount name value => Accounts.disable name value db
  | rateLimit name perMin => Accounts.rateLimit name perMin db
  | updateAccount name disabled maxTier => Accounts.update name disabled maxTier db
  | useAccount id dbNow => Accounts.markUsed id dbNow db
  | createToken id accountId label expiresAt raw =>
    Tokens.create p id accountId label expiresAt raw db
  | revokeLabel accountId label dbNow => (Tokens.revoke accountId label dbNow db).2
  | revokeAll accountId dbNow => (Tokens.revokeAll accountId dbNow db).2
  | useAccountToken id dbNow => Tokens.markUsed id dbNow db
  | createAgent id accountId name proxyGrants raw =>
    Agents.create p id accountId name proxyGrants raw db
  | updateGrants name proxyGrants => Agents.updateGrants name proxyGrants db
  | mintAgentToken name raw => Agents.mintToken p name raw db
  | disableAgent name value => Agents.disable name value db
  | deleteAgent name => Agents.delete name db
  | useAgent id dbNow => Agents.markUsed id dbNow db
  | signIn id accountId raw dbNow => createSession p sessionTtl id accountId raw dbNow db
  | signOut raw dbNow => revokeSession p raw dbNow db
  | mint nextId grant access refresh now => mintTokens p nextId grant access refresh now db
  | rotate id nextId grant access refresh now dbNow =>
    rotateTokens p id nextId grant access refresh now dbNow db
  | revokeFamily clientId accountId seen dbNow => revokeFamilyOf clientId accountId seen dbNow db
  | revokeGrants accountId seen dbNow => Auth.revokeGrants accountId seen dbNow db
  | revokeToken clientId token dbNow => Auth.revokeToken p clientId token dbNow db
  | useToken id dbNow => markTokenUsed id dbNow db

end Write

/-- The credential tables under every statement that writes them; a statement whose text cannot be
hashed, or that would break a constraint, raises. -/
def credentials (p : Provider) (sessionTtl : ℤ) : Machine Store Write where
  step s a :=
    if (a.hashed.all fun raw ↦ (p.hashToken raw).isOk) = true then
      if h : (a.on p sessionTtl s.db).Valid then some ⟨a.on p sessionTtl s.db, h⟩ else none
    else none

theorem credentials_step {p : Provider} {sessionTtl : ℤ} {s t : Store} {a : Write}
    (h : (credentials p sessionTtl).step s a = some t) :
    t.db = a.on p sessionTtl s.db ∧ ∀ raw ∈ a.hashed, ∃ hash, p.hashToken raw = .ok hash := by
  unfold credentials at h
  dsimp only at h
  split at h
  · next hhashed =>
    split at h
    · obtain rfl := Option.some.inj h
      refine ⟨rfl, fun raw hraw ↦ ?_⟩
      have hok := List.all_eq_true.mp hhashed raw hraw
      cases hhash : p.hashToken raw with
      | ok hash => exact ⟨hash, rfl⟩
      | error e =>
        rw [hhash] at hok
        cases hok
    · cases h
  · cases h

end DatumSync.Auth
