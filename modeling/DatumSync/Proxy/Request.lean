import DatumSync.Principal
import DatumSync.Proxy.Url
import DatumSync.Python.Dict

/-!
# Proxied requests

`proxy_request` up to the answer of the last hop: what it hands to the HTTP client, hop by hop, and
the response or the error it comes to.  The database, the resolver and the client are parameters,
and so is how Python shows a value.  The audit row and the result are made after the last hop.
-/

namespace DatumSync.Proxy

open Python

/-- What one call of `client.request` is given. -/
structure Request where
  method : Str
  url : Str
  headers : Dict
  params : Option Dict
  content : Option Json

/-- What the proxy reads of an answer. -/
structure Response where
  status : ℕ
  location : Option Str
  contentType : Str
  content : List UInt8

def Response.isRedirect (response : Response) : Bool :=
  decide (300 ≤ response.status ∧ response.status ≤ 399)

/-- The row of a connection, its `config` decoded. -/
structure Connection where
  type : Str
  tier : ℤ
  config : List (Str × Json)

/-- The database, the resolver, the HTTP client, and `str` and `repr`. -/
structure Outside where
  /-- `db.pool().acquire()` -/
  acquire : Except Exc Unit
  /-- `connections.get(conn, name)` -/
  connection : Str → Except Exc (Option Connection)
  /-- The opened secret of a connection, `{}` where there is none. -/
  secret : Str → Except Exc (List (Str × Json))
  /-- The checks `urlsplit` makes of a `netloc`. -/
  netlocOk : Str → Bool
  /-- `socket.getaddrinfo`; no list where the name does not resolve. -/
  getaddrinfo : Str → ℕ → Except Exc (Option (List Str))
  /-- `_ip_is_blocked` -/
  ipIsBlocked : Str → Bool
  /-- `client.request`, by hop. -/
  answer : ℕ → Request → Except Exc Response
  /-- `str(response.url.join(location))` -/
  join : Request → Str → Except Exc Str
  strOf : Json → Str
  reprOf : Json → Str

variable (outside : Outside)

def apiError (status : ℕ) (code : String) (message : Str) : Exc :=
  .api status (str code) message []

def validateUpstreamUrl (url : Str) : Except Exc Unit :=
  let parsed := target url
  if !outside.netlocOk parsed.netloc then .error (.raised .valueError (str "Invalid URL"))
  else if parsed.scheme ≠ str "http" ∧ parsed.scheme ≠ str "https" then
    .error (apiError 400 "INVALID_URL" (str "upstream URL must use http or https"))
  else match hostname parsed.netloc with
    | none => .error (apiError 400 "INVALID_URL" (str "upstream URL has no host"))
    | some host =>
      match port parsed.netloc with
      | .error e => .error e
      | .ok number =>
        let number := match number with
          | some (n + 1) => n + 1
          | _ => if parsed.scheme = str "https" then 443 else 80
        match outside.getaddrinfo host number with
        | .error e => .error e
        | .ok none => .error (apiError 502 "DNS_FAILED" (str "cannot resolve " ++ host))
        | .ok (some addresses) =>
          if addresses.any outside.ipIsBlocked then
            .error (apiError 403 "BLOCKED_ADDRESS"
              (str "upstream resolves to a private or reserved address"))
          else .ok ()

/-! ## Injecting credentials -/

def base64Digit (n : ℕ) : CodePoint :=
  (str "ABCDEFGHIJKLMNOPQRSTUVWXYZabcdefghijklmnopqrstuvwxyz0123456789+/").getD n (cp '=')

def base64 : List UInt8 → Str
  | [] => []
  | [a] => [base64Digit (a.toNat / 4), base64Digit (a.toNat % 4 * 16), cp '=', cp '=']
  | [a, b] =>
    [base64Digit (a.toNat / 4), base64Digit (a.toNat % 4 * 16 + b.toNat / 16),
      base64Digit (b.toNat % 16 * 4), cp '=']
  | a :: b :: c :: rest =>
    base64Digit (a.toNat / 4) :: base64Digit (a.toNat % 4 * 16 + b.toNat / 16) ::
      base64Digit (b.toNat % 16 * 4 + c.toNat / 64) :: base64Digit (c.toNat % 64) :: base64 rest

/-- What `inject_auth` sets. -/
inductive Injection where
  | header (name value : Str)
  | param (name value : Str)
  deriving DecidableEq

def Injection.value : Injection → Str
  | header _ v => v
  | param _ v => v

/-- `fields[key]` for a text key. -/
def requiredItem (fields : List (Str × Json)) (key : Str) : Except Exc Json :=
  match Json.field fields key with
  | some v => .ok v
  | none => .error (.raised .keyError key)

/-- `fields.get(key, default)` for a key of any type. -/
def getItem (fields : List (Str × Json)) (key default : Json) : Except Exc Json :=
  match key with
  | .text name => .ok (Json.fieldD fields name default)
  | _ =>
    if key.hashable then .ok default else .error (.raised .typeError (str "unhashable type"))

/-- `secret.get(rule["secret_field"])`, which must be truthy. -/
def secretField (rule secret : List (Str × Json)) (use : String) : Except Exc Json :=
  match requiredItem rule (str "secret_field") with
  | .error e => .error e
  | .ok name =>
    match getItem secret name .null with
    | .error e => .error e
    | .ok value =>
      if value.truthy then .ok value
      else .error (apiError 500 "MISSING_SECRET_FIELD"
        (str "secret has no " ++ outside.reprOf name ++ str " for " ++ str use ++
          str " injection"))

def basicValue (rule secret : List (Str × Json)) : Except Exc Str :=
  match getItem secret (Json.fieldD rule (str "user_field") (.text (str "username")))
      (.text []) with
  | .error e => .error e
  | .ok user =>
    match getItem secret (Json.fieldD rule (str "pass_field") (.text (str "password")))
        (.text []) with
    | .error e => .error e
    | .ok password =>
      match encodeUtf8 (outside.strOf user ++ [cp ':'] ++ outside.strOf password) with
      | none => .error (.raised .unicodeError (str "surrogates not allowed"))
      | some bytes => .ok (str "Basic " ++ base64 bytes)

/-- The header of a `header` rule; a name that is no text is refused by the dict or the client. -/
def headerInjection (rule secret : List (Str × Json)) : Except Exc Injection :=
  match requiredItem rule (str "header") with
  | .error e => .error e
  | .ok name =>
    match secretField outside rule secret "header" with
    | .error e => .error e
    | .ok value =>
      match name with
      | .text header => .ok (.header header (outside.strOf value))
      | _ => .error (.raised .typeError (str "Header name must be str or bytes"))

/-- The parameter of a `query_param` rule; the client shows a name that is no text by `str`. -/
def paramInjection (rule secret : List (Str × Json)) : Except Exc Injection :=
  match requiredItem rule (str "param") with
  | .error e => .error e
  | .ok name =>
    match secretField outside rule secret "query_param" with
    | .error e => .error e
    | .ok value =>
      if name.hashable then .ok (.param (outside.strOf name) (outside.strOf value))
      else .error (.raised .typeError (str "unhashable type"))

/-- What the `auth_inject` rule of a config injects. -/
def injection (config secret : List (Str × Json)) : Except Exc (Option Injection) :=
  match Json.fieldD config (str "auth_inject") .null with
  | .null => .ok none
  | .obj rule =>
    let kind := Json.fieldD rule (str "type") .null
    if kind.eqText (str "bearer") then
      (secretField outside rule secret "bearer").map fun value ↦
        some (.header (str "Authorization") (str "Bearer " ++ outside.strOf value))
    else if kind.eqText (str "basic") then
      (basicValue outside rule secret).map fun value ↦
        some (.header (str "Authorization") value)
    else if kind.eqText (str "header") then (headerInjection outside rule secret).map some
    else if kind.eqText (str "query_param") then (paramInjection outside rule secret).map some
    else .error (apiError 500 "UNKNOWN_AUTH_INJECT"
      (str "auth_inject type " ++ outside.reprOf kind ++ str " is not supported"))
  | _ => .error (.raised .attributeError (str "object has no attribute 'get'"))

/-- `headers[name] = value` or `params[name] = value` -/
def Injection.apply : Injection → Dict → Dict → Dict × Dict
  | header name value, headers, params => (headers.set name value, params)
  | param name value, headers, params => (headers, params.set name value)

/-- `inject_auth`: the headers and parameters it leaves. -/
def injectAuth (config secret : List (Str × Json)) (headers params : Dict) :
    Except Exc (Dict × Dict) :=
  match injection outside config secret with
  | .error e => .error e
  | .ok none => .ok (headers, params)
  | .ok (some i) => .ok (i.apply headers params)

/-! ## The call -/

def checkProxyAccess (principal : Principal) (connection : Connection) (name : Str) :
    Except Exc Unit :=
  if principal.agentId.isNone then
    .error (apiError 403 "AGENT_REQUIRED"
      (str "proxy_request requires an agent token, not an account token"))
  else if name ∉ principal.proxyGrants.getD [] then
    .error (apiError 403 "CONNECTION_DENIED"
      (str "agent " ++ outside.reprOf ((principal.agentName.map Json.text).getD .null) ++
        str " has no proxy grant for connection " ++ outside.reprOf (.text name)))
  else if principal.maxTier < connection.tier then
    .error (apiError 403 "TIER_DENIED"
      (str "connection " ++ outside.reprOf (.text name) ++ str " is tier " ++
        decimal connection.tier ++ str "; account " ++ outside.reprOf (.text principal.name) ++
        str " is limited to tier " ++ decimal principal.maxTier))
  else .ok ()

def allowedMethods : List Str :=
  [str "DELETE", str "GET", str "HEAD", str "PATCH", str "POST", str "PUT"]

/-- The arguments of `proxy_request`; a missing `headers` or `query_params` is empty. -/
structure Call where
  principal : Principal
  connectionName : Str
  method : Str
  path : Str
  headers : Dict
  body : Json
  queryParams : Dict

/-- Steps 1 to 3: the config and the secret of the connection. -/
def loadConnection (call : Call) : Except Exc (List (Str × Json) × List (Str × Json)) :=
  match outside.acquire with
  | .error e => .error e
  | .ok () =>
    match outside.connection call.connectionName with
    | .error e => .error e
    | .ok none => .error (apiError 404 "CONNECTION_NOT_FOUND"
        (str "no connection named " ++ outside.reprOf (.text call.connectionName)))
    | .ok (some connection) =>
      if connection.type ≠ str "http" then
        .error (apiError 400 "WRONG_CONNECTION_TYPE"
          (str "proxy_request requires an http connection, got " ++
            outside.reprOf (.text connection.type)))
      else match checkProxyAccess outside call.principal connection call.connectionName with
        | .error e => .error e
        | .ok () =>
          match outside.secret call.connectionName with
          | .error e => .error e
          | .ok secret => .ok (connection.config, secret)

/-- `base_url` of a config, before the slashes at its end are dropped. -/
def baseUrl (call : Call) (config : List (Str × Json)) : Except Exc Str :=
  match Json.fieldD config (str "base_url") (.text []) with
  | .text base =>
    if rstripChar (cp '/') base = [] then
      .error (apiError 500 "NO_BASE_URL"
        (str "connection " ++ outside.reprOf (.text call.connectionName) ++
          str " has no base_url in config"))
    else .ok base
  | _ => .error (.raised .attributeError (str "object has no attribute 'rstrip'"))

/-- The path, made to start with a slash. -/
def slashed (path : Str) : Str :=
  if path ≠ [] ∧ startsWith path (str "/") = false then cp '/' :: path else path

def upstreamUrl (base path : Str) : Str := rstripChar (cp '/') base ++ slashed path

def firstRequest (call : Call) (base : Str) (out : Dict × Dict) : Request where
  method := asciiUpper call.method
  url := upstreamUrl base call.path
  headers := out.1
  params := some out.2
  content := if call.body.isNull then none else some call.body

/-- Steps 1 to 6. -/
def prepare (call : Call) : Except Exc Request :=
  if asciiUpper call.method ∉ allowedMethods then
    .error (apiError 400 "INVALID_METHOD"
      (str "method must be one of " ++ (str ", ").intercalate allowedMethods))
  else match loadConnection outside call with
    | .error e => .error e
    | .ok (config, secret) =>
      match baseUrl outside call config with
      | .error e => .error e
      | .ok base =>
        match validateUpstreamUrl outside (upstreamUrl base call.path) with
        | .error e => .error e
        | .ok () =>
          match injectAuth outside config secret call.headers call.queryParams with
          | .error e => .error e
          | .ok out => .ok (firstRequest call base out)

def isAuthorization (key : Str) : Bool := asciiLower key == str "authorization"

def stripAuth (headers : Dict) : Dict := headers.filterKeys fun key ↦ !isAuthorization key

def redirectRequest (headers : Dict) (url : Str) : Request where
  method := str "GET"
  url := url
  headers := stripAuth headers
  params := none
  content := none

/-- The URL a redirect leads to, validated. -/
def redirectUrl (request : Request) (location : Str) : Except Exc Str :=
  match outside.join request location with
  | .error e => .error e
  | .ok url =>
    match validateUpstreamUrl outside url with
    | .error e => .error e
    | .ok () => .ok url

/-- Step 7: the hops from one request on; `fuel` is how many are left. -/
def exchange (headers : Dict) : (fuel hop : ℕ) → Request → List Request × Except Exc Response
  | 0, _, _ => ([], .error (apiError 502 "TOO_MANY_REDIRECTS" (str "upstream redirect loop")))
  | fuel + 1, hop, request =>
    match outside.answer hop request with
    | .error e => ([request], .error e)
    | .ok response =>
      if !response.isRedirect then ([request], .ok response)
      else
        let location := response.location.getD []
        if location = [] then
          ([request], .error (apiError 502 "REDIRECT_NO_LOCATION"
            (str "upstream redirect without Location header")))
        else match redirectUrl outside request location with
          | .error e => ([request], .error e)
          | .ok url =>
            let (sent, result) := exchange headers fuel (hop + 1) (redirectRequest headers url)
            (request :: sent, result)

def maxRedirects : ℕ := 5

/-- `proxy_request`: the requests it sends, and what the last one comes to. -/
def proxyRequest (call : Call) : List Request × Except Exc Response :=
  match prepare outside call with
  | .error e => ([], .error e)
  | .ok request => exchange outside request.headers (maxRedirects + 1) 0 request

end DatumSync.Proxy
