import DatumSync.Foundation.Machine
import DatumSync.Foundation.ReadCommitted
import DatumSync.OAuth.Tables

/-!
# The authorization server with its requests interleaved

Any number of requests, each a sequence of statements, on the tables of the authorization server.
A request keeps what it has written until it commits, and locks the row it has selected; a family is
revoked by an `UPDATE` of its own.  A request can end without a commit at any point.
-/

namespace DatumSync.OAuth

open Foundation Python

/-- The columns of `oauth_clients` that an authorization reads. -/
structure RegisteredClient where
  clientId : Str
  redirectUris : List Str
  deriving DecidableEq

/-- The form that the consent screen posts, apart from the password. -/
structure AuthorizeForm where
  clientId : Str
  redirectUri : Str
  codeChallenge : Str
  resource : Str := []
  scope : Str := []

/-- A row of `oauth_tokens`, with the code it descends from and the request that has minted it. -/
structure GrantToken extends TokenRow where
  origin : Str
  minter : ℕ
  deriving DecidableEq

/-- What a request to the token endpoint presents. -/
inductive Credential where
  | code (code verifier : Str) (redirectUri : Option Str)
  | refresh (refreshToken : Str)

/-- A request to the token endpoint by a client it has authenticated. -/
structure Request where
  clientId : Str
  credential : Credential
  resource : Option Str := none
  /-- `now()` in its transaction. -/
  dbNow : ℤ

/-- The row that a request has selected. -/
inductive Grant where
  | code (verifier : Str) (redirectUri : Option Str) (row : CodeRow)
  | token (row : GrantToken)

/-- The rows an `UPDATE` of `revoked_at` is for. -/
inductive Target where
  /-- `_revoke_family` -/
  | family (clientId : Str) (accountId : ℤ)
  /-- `revoke` -/
  | token (tokenHash clientId : Str)
  /-- `revoke_grants` -/
  | account (accountId : ℤ)

inductive RowKey where
  | code (code : Str)
  | token (id : ℤ)
  deriving DecidableEq

inductive Phase where
  | idle
  | started (request : Request)
  | locked (request : Request) (grant : Grant)
  | checked (request : Request) (grant : Grant)
  /-- `used_at` of the code has been written. -/
  | used (request : Request) (grant : Grant)
  /-- The account has been looked up. -/
  | active (request : Request) (grant : Grant)
  | minted (request : Request) (grant : Grant) (refreshHash : Str) (rows : List GrantToken)
  /-- `rotated_to` of the token has been written. -/
  | replaced (request : Request) (row : GrantToken) (replacement : Option ℤ)
      (rows : List GrantToken)
  | revokes (target : Target)
  | updating (target : Target) (update : SetUpdate ℤ)

/-- A family revocation that has been committed; the requests below `bound` had begun. -/
structure Revocation where
  clientId : Str
  accountId : ℤ
  bound : ℕ
  deriving DecidableEq

/-- The committed tables and the requests.  `exchanged`, `rotated` and `revocations` are what has
been committed of each kind. -/
structure Server where
  clients : List RegisteredClient := []
  accounts : List AccountRow := []
  codes : Str → Option CodeRow := fun _ ↦ none
  tokens : ℤ → Option GrantToken := fun _ ↦ none
  nextId : ℤ := 1
  nextRequest : ℕ := 0
  phases : ℕ → Phase := fun _ ↦ .idle
  exchanged : List Str := []
  rotated : List ℤ := []
  revocations : List Revocation := []

/-- A request taking its next statement, and what else writes the tables. -/
inductive Action where
  | register (client : RegisteredClient)
  | putAccounts (accounts : List AccountRow)
  | authorizeSubmit (form : AuthorizeForm) (accountId : ℤ) (code : Str) (now : ℤ)
  | begin (request : Request)
  | lock (q : ℕ)
  | check (q : ℕ) (now : ℤ)
  | use (q : ℕ)
  | account (q : ℕ)
  | mint (q : ℕ) (access refresh : Str) (now : ℤ)
  | replace (q : ℕ)
  | commit (q : ℕ)
  | abort (q : ℕ)
  | revoke (clientId token : Str)
  | revokeGrants (accountId : ℤ)
  | snapshot (q : ℕ)
  | visit (q : ℕ) (id : ℤ)
  | finish (q : ℕ) (dbNow : ℤ)

/-! ## Rows -/

namespace GrantToken

/-- `SET revoked_at = now(), rotated_to = $2, last_used_at = now()` -/
def rotate (now : ℤ) (replacement : Option ℤ) (row : GrantToken) : GrantToken :=
  { row with toTokenRow := row.toTokenRow.rotate now replacement }

def revoke (now : ℤ) (row : GrantToken) : GrantToken :=
  { row with toTokenRow := row.toTokenRow.revoke now }

end GrantToken

def Target.wants : Target → GrantToken → Bool
  | family clientId accountId, row => row.inFamily clientId accountId
  | token tokenHash clientId, row =>
    row.tokenHash == tokenHash && row.clientId == some clientId && row.revokedAt.isNone
  | account accountId, row => row.accountId == accountId && row.revokedAt.isNone

/-- The revocations once one for the target has been committed. -/
def Target.record (bound : ℕ) (revocations : List Revocation) : Target → List Revocation
  | family clientId accountId => ⟨clientId, accountId, bound⟩ :: revocations
  | _ => revocations

namespace Grant

def key : Grant → RowKey
  | code _ _ row => .code row.code
  | token row => .token row.id

def accountId : Grant → ℤ
  | code _ _ row => row.accountId
  | token row => row.accountId

def resource : Grant → Option Str
  | code _ _ row => row.resource
  | token row => row.resource

def scope : Grant → Option Str
  | code _ _ row => row.scope
  | token row => row.scope

/-- The code that what is minted on this grant descends from. -/
def origin : Grant → Str
  | code _ _ row => row.code
  | token row => row.origin

/-- The checks on the row that has been locked. -/
def check (p : Provider) (now : ℤ) (request : Request) : Grant → Except TxnFailure Unit
  | code verifier redirectUri row =>
    p.checkCode now request.clientId row redirectUri verifier request.resource
  | token row => p.checkRefresh now request.clientId row.toTokenRow request.resource

end Grant

namespace Phase

def held : Phase → List RowKey
  | idle => []
  | started _ => []
  | locked _ grant => [grant.key]
  | checked _ grant => [grant.key]
  | used _ grant => [grant.key]
  | active _ grant => [grant.key]
  | minted _ grant _ _ => [grant.key]
  | replaced _ row _ _ => [.token row.id]
  | revokes _ => []
  | updating _ update => update.done.map .token

/-- The rows that are inserted and not yet committed. -/
def inserted : Phase → List GrantToken
  | minted _ _ _ rows => rows
  | replaced _ _ _ rows => rows
  | _ => []

end Phase

/-! ## The consent screen -/

/-- `[A-Za-z0-9._~-]` -/
def isChallengeChar (c : CodePoint) : Bool :=
  Proxy.isAlpha c || (str "0123456789._~-").contains c

/-- `_CHALLENGE_RE.match`; `$` also matches before a final newline. -/
def isChallenge (s : Str) : Bool :=
  let body := if s.getLast? = some (cp '\n') then s.dropLast else s
  decide (43 ≤ body.length ∧ body.length ≤ 128) && body.all isChallengeChar

def Provider.checkResource (p : Provider) (resource : Option Str) : Except Failure Str :=
  match resource with
  | none => .ok p.mcpResource
  | some requested =>
    if p.canonicalResource requested ≠ p.canonicalResource p.mcpResource then
      .error (.oauth (str "invalid_target")
        (str "this server does not issue tokens for " ++ requested) 400)
    else .ok p.mcpResource

/-- A text of a form, with `or None`. -/
def orNone (value : Str) : Option Str := if value = [] then none else some value

/-- The row `authorize_submit` inserts once the password is right. -/
def authorizeRow (p : Provider) (clients : List RegisteredClient) (form : AuthorizeForm)
    (accountId : ℤ) (code : Str) (now : ℤ) : Except Failure CodeRow :=
  if form.clientId = [] then .error (invalidRequest (str "client_id is required"))
  else match clients.find? fun client ↦ client.clientId == form.clientId with
    | none => .error (invalidClient (str "unknown client_id"))
    | some client =>
      if form.redirectUri ∉ client.redirectUris then
        .error (invalidRequest (str "redirect_uri is not registered"))
      else if isChallenge form.codeChallenge = false then
        .error (invalidRequest (str "invalid PKCE code_challenge"))
      else match p.checkResource (orNone form.resource) with
        | .error f => .error f
        | .ok audience => .ok
          { code := code, clientId := form.clientId, accountId := accountId
            redirectUri := form.redirectUri, codeChallenge := form.codeChallenge
            resource := some audience, scope := orNone form.scope
            expiresAt := now + p.codeTtl * 1000000 }

/-! ## Statements -/

namespace Server

def committed (s : Server) : List GrantToken :=
  (List.range s.nextId.toNat).filterMap fun id ↦ s.tokens id

/-- No other request holds the lock of a row. -/
def IsFree (s : Server) (q : ℕ) (key : RowKey) : Prop :=
  ∀ r < s.nextRequest, r ≠ q → key ∉ (s.phases r).held

instance (s : Server) (q : ℕ) (key : RowKey) : Decidable (s.IsFree q key) :=
  inferInstanceAs (Decidable (∀ r < s.nextRequest, r ≠ q → key ∉ (s.phases r).held))

/-- A hash has not been inserted, committed or not. -/
def IsNewHash (s : Server) (hash : Str) : Prop :=
  (∀ row ∈ s.committed, row.tokenHash ≠ hash) ∧
    ∀ r < s.nextRequest, ∀ row ∈ (s.phases r).inserted, row.tokenHash ≠ hash

instance (s : Server) (hash : Str) : Decidable (s.IsNewHash hash) :=
  inferInstanceAs (Decidable ((∀ row ∈ s.committed, row.tokenHash ≠ hash) ∧
    ∀ r < s.nextRequest, ∀ row ∈ (s.phases r).inserted, row.tokenHash ≠ hash))

def setPhase (s : Server) (q : ℕ) (phase : Phase) : Server :=
  { s with phases := Function.update s.phases q phase }

def enter (s : Server) (phase : Phase) : Server :=
  { s.setPhase s.nextRequest phase with nextRequest := s.nextRequest + 1 }

variable (p : Provider) (s : Server) (q : ℕ)

/-- `authorize_submit`; the code is a primary key. -/
def authorizeSubmit (form : AuthorizeForm) (accountId : ℤ) (code : Str) (now : ℤ) :
    Option Server :=
  match authorizeRow p s.clients form accountId code now with
  | .error _ => some s
  | .ok row =>
    if (s.codes code).isSome then some s
    else some { s with codes := Function.update s.codes code (some row) }

/-- A transaction of the token endpoint begins. -/
def begin (request : Request) : Option Server :=
  if s.clients.any fun client ↦ client.clientId == request.clientId then
    some (s.enter (.started request))
  else none

/-- The committed row that a credential names. -/
def select : Credential → Option Grant
  | .code code verifier redirectUri => (s.codes code).map (.code verifier redirectUri)
  | .refresh refreshToken =>
    match p.hashToken refreshToken with
    | .error _ => none
    | .ok hash =>
      (s.committed.find? fun row ↦ row.tokenHash == hash && row.kind == .refresh).map .token

def lock : Option Server :=
  match s.phases q with
  | .started request =>
    match s.select p request.credential with
    | none => some (s.setPhase q .idle)
    | some grant =>
      if s.IsFree q grant.key then some (s.setPhase q (.locked request grant)) else none
  | _ => none

/-- The checks; a replay goes on to the revocation of the family. -/
def check (now : ℤ) : Option Server :=
  match s.phases q with
  | .locked request grant =>
    match grant.check p now request with
    | .ok () => some (s.setPhase q (.checked request grant))
    | .error (.failure _) => some (s.setPhase q .idle)
    | .error (.reuse clientId accountId _) =>
      some (s.setPhase q (.revokes (.family clientId accountId)))
  | _ => none

/-- `UPDATE oauth_codes` -/
def use : Option Server :=
  match s.phases q with
  | .checked request (.code verifier redirectUri row) =>
    some (s.setPhase q (.used request (.code verifier redirectUri row)))
  | _ => none

/-- The account must be there and not disabled. -/
def lookUp (request : Request) (grant : Grant) : Option Server :=
  if (s.accounts.find? fun row ↦ row.id == grant.accountId).any fun row ↦ !row.disabled then
    some (s.setPhase q (.active request grant))
  else some (s.setPhase q .idle)

/-- `SELECT id, disabled FROM service_accounts` -/
def account : Option Server :=
  match s.phases q with
  | .used request grant => s.lookUp q request grant
  | .checked request (.token row) => s.lookUp q request (.token row)
  | _ => none

def mintedRows (request : Request) (grant : Grant) (now nextId : ℤ)
    (accessHash refreshHash : Str) : List GrantToken :=
  (p.mintedRows now nextId accessHash refreshHash request.clientId grant.accountId grant.resource
    grant.scope).map fun row ↦ { toTokenRow := row, origin := grant.origin, minter := q }

/-- `_mint`, which waits for the end of a request that has inserted the same hash. -/
def mint (access refresh : Str) (now : ℤ) : Option Server :=
  match s.phases q, p.hashToken access, p.hashToken refresh with
  | .active request grant, .ok accessHash, .ok refreshHash =>
    if accessHash ≠ refreshHash ∧ s.IsNewHash accessHash ∧ s.IsNewHash refreshHash then
      some { s.setPhase q (.minted request grant refreshHash
          (mintedRows p q request grant now s.nextId accessHash refreshHash)) with
        nextId := s.nextId + 2 }
    else none
  | _, _, _ => none

/-- The replacement is looked up and written to the row that has been rotated. -/
def replace : Option Server :=
  match s.phases q with
  | .minted request (.token row) refreshHash rows =>
    let replacement := (rows ++ s.committed).find? fun other ↦ other.tokenHash == refreshHash
    some (s.setPhase q (.replaced request row (replacement.map fun other ↦ other.id) rows))
  | _ => none

def commitExchange (request : Request) (row : CodeRow) (rows : List GrantToken) : Server :=
  { s.setPhase q .idle with
    codes := modifyAll (CodeRow.use request.dbNow) [row.code] s.codes
    tokens := insertAll (fun other ↦ other.id) rows s.tokens
    exchanged := row.code :: s.exchanged }

def commitRotation (request : Request) (row : GrantToken) (replacement : Option ℤ)
    (rows : List GrantToken) : Server :=
  { s.setPhase q .idle with
    tokens := insertAll (fun other ↦ other.id) rows
      (modifyAll (GrantToken.rotate request.dbNow replacement) [row.id] s.tokens)
    rotated := row.id :: s.rotated }

/-- A transaction of the token endpoint commits. -/
def commit : Option Server :=
  match s.phases q with
  | .minted request (.code _ _ row) _ rows => some (s.commitExchange q request row rows)
  | .replaced request row replacement rows =>
    some (s.commitRotation q request row replacement rows)
  | _ => none

/-- A request ends, with what it has not committed undone. -/
def abort : Option Server :=
  match s.phases q with
  | .idle => none
  | _ => some (s.setPhase q .idle)

/-- `revoke` by a client that has been authenticated. -/
def revoke (clientId token : Str) : Option Server :=
  match p.hashToken token with
  | .error _ => some s
  | .ok hash =>
    if s.clients.any fun client ↦ client.clientId == clientId then
      some (s.enter (.revokes (.token hash clientId)))
    else some s

/-- An `UPDATE` of `revoked_at` starts. -/
def snapshot : Option Server :=
  match s.phases q with
  | .revokes target =>
    let ids := s.committed.map fun row ↦ row.id
    some (s.setPhase q (.updating target (.start target.wants s.tokens ids)))
  | _ => none

/-- It comes to a row once no other request holds it. -/
def visit (id : ℤ) : Option Server :=
  match s.phases q with
  | .updating target update =>
    if id ∈ update.pending ∧ s.IsFree q (.token id) then
      some (s.setPhase q (.updating target (update.visit target.wants s.tokens id)))
    else none
  | _ => none

def finish (dbNow : ℤ) : Option Server :=
  match s.phases q with
  | .updating target update =>
    if update.pending = [] then
      some { s.setPhase q .idle with
        tokens := modifyAll (GrantToken.revoke dbNow) update.done s.tokens
        revocations := target.record s.nextRequest s.revocations }
    else none
  | _ => none

/-- One action; undefined where it is not enabled. -/
def step (p : Provider) (s : Server) : Action → Option Server
  | .register client =>
    if s.clients.any fun other ↦ other.clientId == client.clientId then none
    else some { s with clients := s.clients ++ [client] }
  | .putAccounts accounts => some { s with accounts := accounts }
  | .authorizeSubmit form accountId code now => s.authorizeSubmit p form accountId code now
  | .begin request => s.begin request
  | .lock q => s.lock p q
  | .check q now => s.check p q now
  | .use q => s.use q
  | .account q => s.account q
  | .mint q access refresh now => s.mint p q access refresh now
  | .replace q => s.replace q
  | .commit q => s.commit q
  | .abort q => s.abort q
  | .revoke clientId token => s.revoke p clientId token
  | .revokeGrants accountId => some (s.enter (.revokes (.account accountId)))
  | .snapshot q => s.snapshot q
  | .visit q id => s.visit q id
  | .finish q dbNow => s.finish q dbNow

end Server

/-- The authorization server with its requests interleaved. -/
def server (p : Provider) : Machine Server Action where
  step := Server.step p

end DatumSync.OAuth
