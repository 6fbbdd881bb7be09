import DatumSync.OAuth.Tables

/-!
# The token endpoint

`token` on the tables as they are when it runs alone.  A transaction keeps what it has written up
to its end and is rolled back by whatever is raised in it; the revocation that answers a replay is
a statement of its own after that.
-/

namespace DatumSync.OAuth

open Python

/-- The tables the endpoint reads and writes. -/
structure Db where
  clients : List ClientRow
  accounts : List AccountRow
  codes : List CodeRow
  tokens : List TokenRow
  nextId : ℤ
  deriving DecidableEq

structure TokenForm where
  grantType : Str
  code : Option Str := none
  redirectUri : Option Str := none
  codeVerifier : Option Str := none
  refreshToken : Option Str := none
  clientId : Option Str := none
  clientSecret : Option Str := none
  resource : Option Str := none

/-- What a request draws from outside: two tokens, and the clocks of the server and the database. -/
structure Draw where
  access : Str
  refresh : Str
  now : ℤ
  dbNow : ℤ

/-- The answer to a request that succeeds. -/
structure TokenBody where
  accessToken : Str
  tokenType : Str := str "Bearer"
  expiresIn : ℤ
  refreshToken : Str
  scope : Option Str
  deriving DecidableEq

/-- A text that is missing or empty is not given. -/
def given (value : Option Str) : Option Str :=
  match value with
  | some text => if text = [] then none else some text
  | none => none

variable (p : Provider) (draw : Draw)

def fetchClient (db : Db) (clientId : Option Str) : Except Failure ClientRow :=
  match given clientId with
  | none => .error (invalidRequest (str "client_id is required"))
  | some clientId =>
    if isParameter clientId = false then .error (.raised parameterError)
    else match db.clients.find? fun row ↦ row.clientId == clientId with
      | none => .error (invalidClient (str "unknown client_id"))
      | some client => .ok client

/-- The secret of a confidential client. -/
def checkSecret (stored : Str) (clientSecret : Option Str) : Except Failure Unit :=
  match given clientSecret with
  | none => .error (invalidClient (str "client authentication failed"))
  | some secret =>
    match p.hashToken secret with
    | .error e => .error (.raised e)
    | .ok hash =>
      match compareDigest hash stored with
      | .error e => .error (.raised e)
      | .ok true => .ok ()
      | .ok false => .error (invalidClient (str "client authentication failed"))

def authenticateClient (db : Db) (form : TokenForm) : Except Failure ClientRow :=
  match fetchClient db form.clientId with
  | .error f => .error f
  | .ok client =>
    match client.secretHash with
    | none => .ok client
    | some stored =>
      match checkSecret p stored form.clientSecret with
      | .error f => .error f
      | .ok () => .ok client

/-- `account is None or account["disabled"]` is false. -/
def Db.isActive (db : Db) (accountId : ℤ) : Bool :=
  (db.accounts.find? fun row ↦ row.id == accountId).any fun row ↦ !row.disabled

/-- A transaction body: what it comes to, and what it has written so far. -/
abbrev Txn (α : Type) := Except TxnFailure α × Db

/-- `async with conn.transaction()` -/
def transaction {α : Type} (db : Db) (body : Txn α) : Txn α :=
  match body with
  | (.ok value, written) => (.ok value, written)
  | (.error f, _) => (.error f, db)

/-- `_mint`; the column of the hash is unique. -/
def mint (db : Db) (clientId : Str) (accountId : ℤ) (resource scope : Option Str) :
    Txn TokenBody :=
  match p.hashToken draw.access, p.hashToken draw.refresh with
  | .error e, _ => (.error (.failure (.raised e)), db)
  | .ok _, .error e => (.error (.failure (.raised e)), db)
  | .ok accessHash, .ok refreshHash =>
    if accessHash = refreshHash ∨
        (db.tokens.any fun row ↦ row.tokenHash == accessHash || row.tokenHash == refreshHash) then
      (.error (.failure (.raised (.raised .databaseError (str "duplicate key value")))), db)
    else
      (.ok { accessToken := draw.access, expiresIn := p.accessTtl, refreshToken := draw.refresh
             scope := given scope },
        { db with
          tokens := db.tokens ++ p.mintedRows draw.now db.nextId accessHash refreshHash clientId
            accountId resource scope
          nextId := db.nextId + 2 })

/-- `_exchange_code_txn` up to its commit. -/
def exchangeBody (db : Db) (client : ClientRow) (code : Str) (redirectUri : Option Str)
    (verifier : Str) (resource : Option Str) : Txn TokenBody :=
  if isParameter code = false then (.error (.failure (.raised parameterError)), db)
  else match db.codes.find? fun row ↦ row.code == code with
    | none => (.error (refused (str "unknown authorization code")), db)
    | some row =>
      match p.checkCode draw.now client.clientId row redirectUri verifier resource with
      | .error f => (.error f, db)
      | .ok () =>
        let used := { db with codes := useCode draw.dbNow code db.codes }
        if used.isActive row.accountId then
          mint p draw used client.clientId row.accountId row.resource row.scope
        else (.error (refused (str "account is no longer active")), used)

/-- The last two statements of `_rotate_refresh_txn`: the replacement of the row is looked up. -/
def rotateRow (id : ℤ) (tokens : List TokenRow) : List TokenRow :=
  let replacement :=
    match p.hashToken draw.refresh with
    | .error _ => none
    | .ok hash => (tokens.find? fun row ↦ row.tokenHash == hash).map TokenRow.id
  tokens.map fun row ↦ if row.id = id then row.rotate draw.dbNow replacement else row

/-- `_rotate_refresh_txn` up to its commit. -/
def rotateBody (db : Db) (client : ClientRow) (refreshToken : Str) (resource : Option Str) :
    Txn TokenBody :=
  match p.hashToken refreshToken with
  | .error e => (.error (.failure (.raised e)), db)
  | .ok hash =>
    match db.tokens.find? fun row ↦ row.tokenHash == hash && row.kind == .refresh with
    | none => (.error (refused (str "unknown refresh token")), db)
    | some row =>
      match p.checkRefresh draw.now client.clientId row resource with
      | .error f => (.error f, db)
      | .ok () =>
        if db.isActive row.accountId then
          match mint p draw db client.clientId row.accountId row.resource row.scope with
          | (.error f, minted) => (.error f, minted)
          | (.ok body, minted) =>
            (.ok body, { minted with tokens := rotateRow p draw row.id minted.tokens })
        else (.error (refused (str "account is no longer active")), db)

def revokeFamily (db : Db) (clientId : Str) (accountId : ℤ) : Db :=
  { db with tokens := db.tokens.map fun row ↦
      if row.inFamily clientId accountId then row.revoke draw.dbNow else row }

/-- `except _Reuse` around a transaction. -/
def answerReuse (outcome : Txn TokenBody) : Except Failure TokenBody × Db :=
  match outcome with
  | (.ok body, db) => (.ok body, db)
  | (.error (.failure f), db) => (.error f, db)
  | (.error (.reuse clientId accountId message), db) =>
    (.error (invalidGrant message), revokeFamily draw db clientId accountId)

def exchangeCode (db : Db) (client : ClientRow) (form : TokenForm) :
    Except Failure TokenBody × Db :=
  match given form.code, given form.codeVerifier with
  | some code, some verifier => answerReuse draw (transaction db
      (exchangeBody p draw db client code form.redirectUri verifier form.resource))
  | _, _ => (.error (invalidRequest (str "code and code_verifier are required")), db)

def rotateRefresh (db : Db) (client : ClientRow) (form : TokenForm) :
    Except Failure TokenBody × Db :=
  match given form.refreshToken with
  | some refreshToken => answerReuse draw (transaction db
      (rotateBody p draw db client refreshToken form.resource))
  | none => (.error (invalidRequest (str "refresh_token is required")), db)

/-- `token`: what the request comes to, and the tables it leaves. -/
def token (db : Db) (form : TokenForm) : Except Failure TokenBody × Db :=
  if form.grantType = str "authorization_code" ∨ form.grantType = str "refresh_token" then
    match authenticateClient p db form with
    | .error f => (.error f, db)
    | .ok client =>
      if form.grantType = str "authorization_code" then exchangeCode p draw db client form
      else rotateRefresh p draw db client form
  else
    (.error (.oauth (str "unsupported_grant_type")
      (str "unsupported grant_type " ++ p.reprOf form.grantType) 400), db)

end DatumSync.OAuth
