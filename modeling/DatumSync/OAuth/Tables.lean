import DatumSync.Errors
import DatumSync.Proxy.Url
import DatumSync.Python.JsonDumps

/-!
# The tables of the authorization server and its checks

Clients, codes and tokens, and the checks that the token endpoint makes on a row it has read.
Moments are microseconds since the epoch.  Hashing, lower-casing and the settings are parameters.
-/

namespace DatumSync.OAuth

open Python

/-- The columns of `oauth_clients` the token endpoint reads. -/
structure ClientRow where
  clientId : Str
  secretHash : Option Str
  deriving DecidableEq

/-- The columns of `service_accounts` it reads. -/
structure AccountRow where
  id : ℤ
  disabled : Bool
  deriving DecidableEq

structure CodeRow where
  code : Str
  clientId : Str
  accountId : ℤ
  redirectUri : Str
  codeChallenge : Str
  resource : Option Str
  scope : Option Str
  expiresAt : ℤ
  usedAt : Option ℤ := none
  deriving DecidableEq

inductive TokenKind where
  | access
  | refresh
  | session
  deriving DecidableEq

/-- A row of `oauth_tokens`; a session has no client. -/
structure TokenRow where
  id : ℤ
  tokenHash : Str
  kind : TokenKind
  clientId : Option Str
  accountId : ℤ
  resource : Option Str
  scope : Option Str
  expiresAt : Option ℤ
  revokedAt : Option ℤ := none
  rotatedTo : Option ℤ := none
  lastUsedAt : Option ℤ := none
  deriving DecidableEq

/-- Hashing, lower-casing and the settings; the digests are shown in ASCII. -/
structure Provider where
  /-- `auth.MCP_RESOURCE` -/
  mcpResource : Str
  /-- `str.lower` -/
  lower : Str → Str
  /-- `hashlib.sha256(bytes).hexdigest()` -/
  sha256Hex : List UInt8 → Str
  sha256Hex_ascii : ∀ bytes, IsAscii (sha256Hex bytes)
  /-- `base64.urlsafe_b64encode(hashlib.sha256(bytes).digest()).rstrip(b"=")` -/
  s256 : List UInt8 → Str
  s256_ascii : ∀ bytes, IsAscii (s256 bytes)
  /-- `config.AUTH_CODE_TTL_SECONDS` -/
  codeTtl : ℤ
  /-- `config.ACCESS_TOKEN_TTL_SECONDS` -/
  accessTtl : ℤ
  /-- `config.REFRESH_TOKEN_TTL_SECONDS` -/
  refreshTtl : ℤ
  reprOf : Str → Str

/-- A failed request: an `OAuthError`, or any other exception. -/
inductive Failure where
  | oauth (error description : Str) (status : ℕ)
  | raised (e : Exc)
  deriving DecidableEq

/-- What is raised in a transaction of the token endpoint; `reuse` is `_Reuse`. -/
inductive TxnFailure where
  | failure (f : Failure)
  | reuse (clientId : Str) (accountId : ℤ) (message : Str)
  deriving DecidableEq

def invalidRequest (description : Str) : Failure := .oauth (str "invalid_request") description 400

def invalidClient (description : Str) : Failure := .oauth (str "invalid_client") description 401

def invalidGrant (description : Str) : Failure := .oauth (str "invalid_grant") description 400

/-- `OAuthError("invalid_grant", ...)` in a transaction. -/
def refused (description : Str) : TxnFailure := .failure (invalidGrant description)

/-! ## Texts -/

/-- `value.split(sep, 1)` when `sep` occurs. -/
def splitOnce (sep : Str) : Str → Option (Str × Str)
  | [] => none
  | c :: rest =>
    if startsWith (c :: rest) sep then some ([], (c :: rest).drop sep.length)
    else (splitOnce sep rest).map fun parts ↦ (c :: parts.1, parts.2)

/-- `raw.encode("ascii")` -/
def encodeAscii (raw : Str) : Except Exc (List UInt8) :=
  if IsAscii raw then .ok (raw.map fun c ↦ UInt8.ofNat c.val)
  else .error (.raised .unicodeError (str "ordinal not in range(128)"))

/-- `secrets.compare_digest(a, b)` -/
def compareDigest (a b : Str) : Except Exc Bool :=
  if IsAscii a ∧ IsAscii b then .ok (a == b)
  else .error (.raised .typeError
    (str "comparing strings with non-ASCII characters is not supported"))

/-- A text that a query parameter can hold: UTF-8 without NUL. -/
def isParameter (s : Str) : Bool := (encodeUtf8 s).isSome && !s.contains 0

/-- What passing a text to a query raises. -/
def parameterError : Exc := .raised .databaseError (str "invalid input for query argument")

namespace Provider

variable (p : Provider)

def canonicalResource (value : Str) : Str :=
  let value := rstripChar (cp '/') (strip value)
  match splitOnce (str "://") value with
  | none => value
  | some (scheme, rest) =>
    let parts := Proxy.partition (cp '/') rest
    let path := parts.2.getD []
    p.lower scheme ++ str "://" ++ p.lower parts.1 ++ if path = [] then [] else cp '/' :: path

def hashToken (raw : Str) : Except Exc Str :=
  match encodeUtf8 raw with
  | none => .error (.raised .unicodeError (str "surrogates not allowed"))
  | some bytes => .ok (p.sha256Hex bytes)

def pkceOk (verifier challenge : Str) : Except Exc Bool :=
  match encodeAscii verifier with
  | .error e => .error e
  | .ok bytes => compareDigest (p.s256 bytes) challenge

/-- The audience of a grant: `row["resource"] or auth.MCP_RESOURCE`. -/
def audience (granted : Option Str) : Str :=
  match granted with
  | none => p.mcpResource
  | some resource => if resource = [] then p.mcpResource else resource

def checkGrantResource (granted resource : Option Str) : Except TxnFailure Unit :=
  match resource with
  | none => .ok ()
  | some requested =>
    if p.canonicalResource requested ≠ p.canonicalResource (p.audience granted) then
      .error (.failure
        (.oauth (str "invalid_target") (str "resource does not match the grant") 400))
    else .ok ()

/-- The checks of `_exchange_code_txn` that come before PKCE. -/
def checkCodeRow (now : ℤ) (clientId : Str) (row : CodeRow) (redirectUri : Option Str) :
    Except TxnFailure Unit :=
  if row.clientId ≠ clientId then .error (refused (str "code was issued to a different client"))
  else if row.usedAt.isSome then .error
    (.reuse row.clientId row.accountId (str "authorization code has already been used"))
  else if row.expiresAt < now then .error (refused (str "authorization code has expired"))
  else if redirectUri.any (· ≠ row.redirectUri) then
    .error (refused (str "redirect_uri does not match the request"))
  else .ok ()

/-- The checks of `_exchange_code_txn` on the row it has locked. -/
def checkCode (now : ℤ) (clientId : Str) (row : CodeRow) (redirectUri : Option Str) (verifier : Str)
    (resource : Option Str) : Except TxnFailure Unit :=
  match checkCodeRow now clientId row redirectUri with
  | .error f => .error f
  | .ok () =>
    match p.pkceOk verifier row.codeChallenge with
    | .error e => .error (.failure (.raised e))
    | .ok false => .error (refused (str "PKCE verification failed"))
    | .ok true => p.checkGrantResource row.resource resource

/-- The checks of `_rotate_refresh_txn` on the row it has locked. -/
def checkRefresh (now : ℤ) (clientId : Str) (row : TokenRow) (resource : Option Str) :
    Except TxnFailure Unit :=
  if row.clientId ≠ some clientId then
    .error (refused (str "token was issued to a different client"))
  else if row.rotatedTo.isSome then .error
    (.reuse clientId row.accountId (str "refresh token has already been used"))
  else if row.revokedAt.isSome then .error (refused (str "refresh token has been revoked"))
  else if row.expiresAt.any (· < now) then .error (refused (str "refresh token has expired"))
  else p.checkGrantResource row.resource resource

def mintedRows (now nextId : ℤ) (accessHash refreshHash clientId : Str) (accountId : ℤ)
    (resource scope : Option Str) : List TokenRow :=
  [{ id := nextId, tokenHash := accessHash, kind := .access, clientId := some clientId,
     accountId := accountId, resource := resource, scope := scope,
     expiresAt := some (now + p.accessTtl * 1000000) },
   { id := nextId + 1, tokenHash := refreshHash, kind := .refresh, clientId := some clientId,
     accountId := accountId, resource := resource, scope := scope,
     expiresAt := some (now + p.refreshTtl * 1000000) }]

end Provider

/-! ## Writes -/

/-- `SET used_at = now()` -/
def CodeRow.use (now : ℤ) (row : CodeRow) : CodeRow := { row with usedAt := some now }

/-- `UPDATE oauth_codes SET used_at = now() WHERE code = $1` -/
def useCode (now : ℤ) (code : Str) (codes : List CodeRow) : List CodeRow :=
  codes.map fun row ↦ if row.code = code then row.use now else row

/-- `SET revoked_at = now(), rotated_to = $2, last_used_at = now()` -/
def TokenRow.rotate (now : ℤ) (replacement : Option ℤ) (row : TokenRow) : TokenRow :=
  { row with
    revokedAt := some now
    rotatedTo := replacement
    lastUsedAt := some now }

def TokenRow.revoke (now : ℤ) (row : TokenRow) : TokenRow := { row with revokedAt := some now }

/-- `client_id = $1 AND account_id = $2 AND revoked_at IS NULL` -/
def TokenRow.inFamily (clientId : Str) (accountId : ℤ) (row : TokenRow) : Bool :=
  row.clientId == some clientId && row.accountId == accountId && row.revokedAt.isNone

/-! ## A provider for runs on given texts -/

/-- SHA-256 of the tokens that these runs draw. -/
def sampleDigests : List (Str × Str) :=
  [(str "a0", 0x4e1195df020de59e0d65a33a4279f1183e7ae4e5d980e309f8b55adff2e61c3e),
    (str "r0", 0xdd191696e15e2ee293410d02454c5f9461a2249dee6d57c75f264eaeb83a3782),
    (str "a1", 0xf55ff16f66f43360266b95db6f8fec01d76031054306ae4a4b380598f6cfd114),
    (str "r1", 0x82f3e9c695dc6b8d1b11818d5701919e286de8d47f7c3eb3100c485f79e57828),
    (str "a2", 0x2c3a4249d77070058649dbd822dcaf7957586fce428cfb2ca88b94741eda8b07),
    (str "r2", 0xdb77fd01af957221a4989b64b3770a83a3c56068405b9f0e9408feae57fd17e4)].map
    fun (entry : Str × ℕ) ↦ (entry.1, lowerHexDigits 64 entry.2)

def sampleVerifier : Str := str "dBjftJeZ4CVP-mB92K27uhbUJU1p1r_wW1gFWFOEjXk"

def sampleChallenge : Str := str "E9Melhoa2OwvFrEMTJguCHaoeK1t8URWbuGJSstw-cM"

/-- The entry of a text in a table of digests. -/
def digestIn (digests : List (Str × Str)) (bytes : List UInt8) : Str :=
  ((digests.find? fun entry ↦ encodeUtf8 entry.1 == some bytes).map fun entry ↦ entry.2).getD []

theorem isAscii_digestIn {digests : List (Str × Str)} (h : ∀ entry ∈ digests, IsAscii entry.2)
    (bytes : List UInt8) : IsAscii (digestIn digests bytes) := by
  unfold digestIn
  cases hfound : digests.find? fun entry ↦ encodeUtf8 entry.1 == some bytes with
  | none => exact isAscii_nil
  | some entry => exact h entry (List.mem_of_find?_eq_some hfound)

def sampleProvider : Provider where
  mcpResource := str "http://localhost:8200/mcp"
  lower := asciiLower
  sha256Hex := digestIn sampleDigests
  sha256Hex_ascii := isAscii_digestIn (by decide +kernel)
  s256 := digestIn [(sampleVerifier, sampleChallenge)]
  s256_ascii := isAscii_digestIn (by decide +kernel)
  codeTtl := 600
  accessTtl := 3600
  refreshTtl := 2592000
  reprOf := id

end DatumSync.OAuth
