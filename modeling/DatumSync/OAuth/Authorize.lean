import DatumSync.Auth.Lockout
import DatumSync.OAuth.Consent
import DatumSync.OAuth.RedirectUri
import DatumSync.OAuth.Server
import DatumSync.OAuth.Token
import DatumSync.Worker.Reconcile

/-!
# Registration and the consent screen

The requests a client begins with: it registers, sends a browser to the consent screen, and the
browser posts the form back.  Every check of the first request is made again on what is posted, so
the form can be posted as the page has it, and the answer is the one the first request asked for.
-/

namespace DatumSync.OAuth

open Python

/-! ## `register` -/

structure Registration extends ClientRow where
  clientName : Option Str
  redirectUris : List Str
  grantTypes : List Str
  deriving DecidableEq

/-- `urlsplit` raises a `ValueError` for an authority, and what becomes of grant types that are no
texts: a `TypeError` where they are not ordered, or an `OAuthError` with their `repr`. -/
structure Registrar where
  refuses : Str → Bool
  strange : List Json → Failure

structure Registered where
  client : Registration
  tokenEndpointAuthMethod : Str
  clientIdIssuedAt : ℤ
  clientSecret : Option Str
  deriving DecidableEq

def supportedGrants : List Str := [str "authorization_code", str "refresh_token"]

/-- `[a, b]`, as `repr` writes a list of texts. -/
def reprTexts (p : Provider) (names : List Str) : Str :=
  cp '[' :: (str ", ").intercalate (names.map p.reprOf) ++ [cp ']']

/-- The redirect URIs of a registration, all of them valid. -/
def requestedUris (refuses : Str → Bool) (body : List (Str × Json)) : Except Failure (List Str) :=
  match body.lookup (str "redirect_uris") with
  | some (.arr (first :: rest)) =>
    match Worker.allTexts (first :: rest) with
    | some uris =>
      if uris.all (validRedirectUri refuses) then .ok uris
      else .error (.oauth (str "invalid_redirect_uri")
        (str "each redirect_uri must be https, or http on loopback, " ++
          str "and must not contain a fragment") 400)
    | none => .error (.oauth (str "invalid_redirect_uri")
        (str "each redirect_uri must be https, or http on loopback, " ++
          str "and must not contain a fragment") 400)
  | _ => .error (.oauth (str "invalid_redirect_uri") (str "redirect_uris is required") 400)

/-- `set(grants) - set(GRANT_TYPES)` is empty. -/
def checkGrants (p : Provider) (registrar : Registrar) (grants : Json) : Except Failure Unit :=
  match Worker.iterate grants with
  | .error e => .error (.raised e)
  | .ok items =>
    if items.any fun item ↦ !item.hashable then
      .error (.raised (Worker.typeError "unhashable type"))
    else
      let unsupported := items.filter fun item ↦ !supportedGrants.any (Json.eqText item)
      match unsupported, Worker.allTexts unsupported with
      | [], _ => .ok ()
      | _ :: _, some names => .error (.oauth (str "invalid_client_metadata")
          (str "unsupported grant_types: " ++ reprTexts p (sortTexts names.dedup)) 400)
      | _ :: _, none => .error (registrar.strange unsupported)

/-- The grant types of a registration; the column holds texts only. -/
def requestedGrants (p : Provider) (registrar : Registrar) (body : List (Str × Json)) :
    Except Failure (List Str) :=
  match (body.lookup (str "grant_types")).filter Json.truthy with
  | none => .ok supportedGrants
  | some grants =>
    match checkGrants p registrar grants with
    | .error f => .error f
    | .ok () =>
      match grants with
      | .arr items =>
        match Worker.allTexts items with
        | some names => .ok names
        | none => .error (.raised parameterError)
      | _ => .error (.raised parameterError)

/-- `body.get("client_name")`, for a column of texts. -/
def requestedName (body : List (Str × Json)) : Except Failure (Option Str) :=
  match body.lookup (str "client_name") with
  | none => .ok none
  | some .null => .ok none
  | some (.text name) => .ok (some name)
  | some _ => .error (.raised parameterError)

/-- A client without a secret. -/
def isPublic (body : List (Str × Json)) : Bool :=
  match body.lookup (str "token_endpoint_auth_method") with
  | none => true
  | some method => method.eqText (str "none")

/-- The texts of a row can be stored. -/
def Registration.isStorable (row : Registration) : Bool :=
  (row.clientName.toList ++ row.redirectUris ++ row.grantTypes).all isParameter

/-- `register`, with the texts that it draws. -/
def register (p : Provider) (registrar : Registrar) (body : List (Str × Json))
    (clientId secret : Str) (now : ℤ) : Except Failure Registered :=
  match requestedUris registrar.refuses body with
  | .error f => .error f
  | .ok uris =>
    match requestedGrants p registrar body with
    | .error f => .error f
    | .ok grants =>
      match requestedName body, p.hashToken secret with
      | .error f, _ => .error f
      | .ok _, .error e => .error (.raised e)
      | .ok name, .ok hash =>
        let row : Registration :=
          { clientId := clientId, secretHash := if isPublic body then none else some hash
            clientName := name, redirectUris := uris, grantTypes := grants }
        if row.isStorable then .ok
          { client := row, clientIdIssuedAt := now / 1000000
            tokenEndpointAuthMethod :=
              if isPublic body then str "none" else str "client_secret_post"
            clientSecret := if isPublic body then none else some secret }
        else .error (.raised parameterError)

theorem requestedUris_ok {refuses : Str → Bool} {body : List (Str × Json)} {uris : List Str}
    (h : requestedUris refuses body = .ok uris) :
    uris ≠ [] ∧ ∀ uri ∈ uris, validRedirectUri refuses uri = true := by
  unfold requestedUris at h
  split at h
  · next first rest hlist =>
    split at h
    · next found hfound =>
      split_ifs at h with hall
      rw [← Except.ok.inj h]
      refine ⟨?_, List.all_eq_true.mp hall⟩
      rintro rfl
      cases first with
      | text name =>
        obtain ⟨more, -, hmore⟩ := Option.map_eq_some_iff.mp hfound
        exact List.cons_ne_nil _ _ hmore
      | _ => cases hfound
    · cases h
  · cases h

/-- A client that is registered can be sent an answer: it has a redirect URI, and all are valid. -/
theorem register_ok {p : Provider} {registrar : Registrar} {body : List (Str × Json)}
    {clientId secret : Str} {now : ℤ} {registered : Registered}
    (h : register p registrar body clientId secret now = .ok registered) :
    registered.client.redirectUris ≠ [] ∧
      ∀ uri ∈ registered.client.redirectUris, validRedirectUri registrar.refuses uri = true := by
  unfold register at h
  split at h
  · cases h
  · next uris huris =>
    split at h
    · cases h
    · split at h
      · cases h
      · cases h
      · dsimp only at h
        split_ifs at h <;> exact Except.ok.inj h ▸ requestedUris_ok huris

/-! ## `authorize_form` -/

inductive Answer where
  | page (status : ℕ) (html : Str) (retryAfter : Option ℤ)
  | redirect (url : Str)
  | raised (e : Exc)
  deriving DecidableEq

/-- `_client`, for the columns that an authorization reads. -/
def findClient (clients : List Registration) (clientId : Option Str) :
    Except Failure Registration :=
  match given clientId with
  | none => .error (invalidRequest (str "client_id is required"))
  | some clientId =>
    if isParameter clientId = false then .error (.raised parameterError)
    else match clients.find? fun row ↦ row.clientId == clientId with
      | none => .error (invalidClient (str "unknown client_id"))
      | some client => .ok client

def redirectUri (client : Registration) (requested : Option Str) : Except Failure Str :=
  match requested with
  | none =>
    match client.redirectUris with
    | [uri] => .ok uri
    | _ => .error (invalidRequest
        (str "redirect_uri is required when the client registered more than one"))
  | some uri =>
    if uri ∈ client.redirectUris then .ok uri
    else .error (invalidRequest (str "redirect_uri is not registered"))

/-- The client of a request, and the registered URI that its answer goes to. -/
def findTarget (clients : List Registration) (clientId requested : Option Str) :
    Except Failure (Registration × Str) :=
  match findClient clients clientId with
  | .error f => .error f
  | .ok client =>
    match redirectUri client requested with
    | .error f => .error f
    | .ok uri => .ok (client, uri)

/-- `except OAuthError as exc: return _fail_page(exc.description)` -/
def failed (f : Failure) : Answer :=
  match f with
  | .oauth _ description _ => .page 400 (failPage description) none
  | .raised e => .raised e

def stateParam (state : Option Str) : List (Str × Str) :=
  ((given state).map fun text ↦ (str "state", text)).toList

def redirectWith (uri : Str) (params : List (Str × Str)) : Answer :=
  match redirectUrl uri params with
  | some url => .redirect url
  | none => .raised (.raised .unicodeError (str "surrogates not allowed"))

/-- `except OAuthError as exc: return _error_redirect(...)` -/
def errorRedirect (uri : Str) (state : Option Str) (f : Failure) : Answer :=
  match f with
  | .oauth error description _ => redirectWith uri
      ([(str "error", error), (str "error_description", description)] ++ stateParam state)
  | .raised e => .raised e

def codeChallengeMethod : Str := str "S256"

/-- `request.query_params.get(name)`: the last value of a name. -/
def queryGet (query : List (Str × Str)) (name : String) : Option Str :=
  query.reverse.lookup (str name)

variable (p : Provider)

/-- What `authorize_form` checks once it knows where to send an error: the challenge and the
audience. -/
def checkForm (query : List (Str × Str)) : Except Failure (Str × Str) :=
  if queryGet query "response_type" ≠ some (str "code") then
    .error (.oauth (str "unsupported_response_type") (str "response_type must be code") 400)
  else if (queryGet query "code_challenge_method").getD codeChallengeMethod ≠ codeChallengeMethod
  then .error (invalidRequest (str "code_challenge_method must be " ++ codeChallengeMethod))
  else
    let challenge := (queryGet query "code_challenge").getD []
    if isChallenge challenge = false then
      .error (invalidRequest (str "a valid PKCE code_challenge is required"))
    else match p.checkResource (queryGet query "resource") with
      | .error f => .error f
      | .ok resource => .ok (challenge, resource)

def hiddenFields (clientId uri challenge resource state scope : Str) : List (Str × Str) :=
  [(str "client_id", clientId), (str "redirect_uri", uri), (str "code_challenge", challenge),
    (str "resource", resource), (str "state", state), (str "scope", scope)]

def authorizeForm (clients : List Registration) (query : List (Str × Str)) : Answer :=
  match findTarget clients (queryGet query "client_id") (queryGet query "redirect_uri") with
  | .error f => failed f
  | .ok (client, uri) =>
    match checkForm p query with
    | .error f => errorRedirect uri (queryGet query "state") f
    | .ok (challenge, resource) =>
      .page 200 (consentPage client.clientName
        (hiddenFields client.clientId uri challenge resource
          ((queryGet query "state").getD []) ((queryGet query "scope").getD [])) none) none

/-! ## `authorize_submit` -/

structure ConsentForm extends AuthorizeForm where
  username : Str
  password : Str
  state : Str := []

/-- The columns of `service_accounts` that `authenticate_password` reads. -/
structure Person extends Auth.LoginRow where
  id : ℤ
  name : Str
  deriving DecidableEq

/-- A value of the form; one that is empty is not given. -/
def formGet (fields : List (Str × Str)) (name : String) : Option Str := given (queryGet fields name)

/-- The parameters of `authorize_submit`; a form without a required one is not processed. -/
def readForm (fields : List (Str × Str)) : Option ConsentForm := do
  let username ← formGet fields "username"
  let password ← formGet fields "password"
  let clientId ← formGet fields "client_id"
  let redirectUri ← formGet fields "redirect_uri"
  let codeChallenge ← formGet fields "code_challenge"
  some { clientId := clientId, redirectUri := redirectUri, codeChallenge := codeChallenge
         resource := (formGet fields "resource").getD []
         scope := (formGet fields "scope").getD []
         username := username, password := password
         state := (formGet fields "state").getD [] }

/-- What a form must have before its password is looked at: the client and the audience. -/
def checkSubmit (clients : List Registration) (form : ConsentForm) :
    Except Answer (Registration × Str) :=
  match findTarget clients (some form.clientId) (some form.redirectUri) with
  | .error f => .error (failed f)
  | .ok (client, uri) =>
    if isChallenge form.codeChallenge = false then
      .error (errorRedirect uri (some form.state)
        (invalidRequest (str "invalid PKCE code_challenge")))
    else match p.checkResource (orNone form.resource) with
      | .error f => .error (errorRedirect uri (some form.state) f)
      | .ok audience => .ok (client, audience)

def consentAgain (client : Registration) (form : ConsentForm) (audience error : Str) : Str :=
  consentPage client.clientName
    (hiddenFields form.clientId form.redirectUri form.codeChallenge audience form.state form.scope)
    (some error)

/-- `TooManyAttempts`, with its `retry_after`. -/
def lockedPage (client : Registration) (form : ConsentForm) (audience : Str) (wait : ℤ) : Answer :=
  .page 429 (consentAgain client form audience
    (str "Too many failed attempts. Try again in " ++ decimal wait ++ str " seconds.")) (some wait)

/-- A password that is wrong, or an account that is disabled. -/
def incorrectPage (client : Registration) (form : ConsentForm) (audience : Str) : Answer :=
  .page 401 (consentAgain client form audience (str "Incorrect account or password.")) none

/-- The row that `authorize_submit` inserts. -/
def codeRow (form : ConsentForm) (audience : Str) (accountId : ℤ) (code : Str) (now : ℤ) :
    CodeRow :=
  { code := code, clientId := form.clientId, accountId := accountId
    redirectUri := form.redirectUri, codeChallenge := form.codeChallenge
    resource := some audience, scope := orNone form.scope
    expiresAt := now + p.codeTtl * 1000000 }

def codeRedirect (form : ConsentForm) (code : Str) : Answer :=
  redirectWith form.redirectUri ((str "code", code) :: stateParam (some form.state))

/-- The texts of the form that are stored can be. -/
def ConsentForm.isStorable (form : ConsentForm) : Bool :=
  [form.redirectUri, form.codeChallenge, form.scope].all isParameter

/-- `authorize_submit` on tables that stand still, where `_locked_for` has answered with `wait`: what
the browser is answered, and the row that is inserted. -/
def authorizeSubmit (hasher : Auth.Hasher) (clients : List Registration) (people : List Person)
    (wait : ℤ) (form : ConsentForm) (code : Str) (now : ℤ) : Answer × Option CodeRow :=
  match checkSubmit p clients form with
  | .error answer => (answer, none)
  | .ok (client, audience) =>
    if wait ≠ 0 then (lockedPage client form audience wait, none)
    else if isParameter form.username = false then (.raised parameterError, none)
    else
      let person := people.find? fun row ↦ row.name == form.username
      match Auth.verdict hasher (person.map Person.toLoginRow) form.password, person with
      | .error e, _ => (.raised e, none)
      | .ok (some _), some account =>
        if form.isStorable then
          (codeRedirect form code, some (codeRow p form audience account.id code now))
        else (.raised parameterError, none)
      | .ok _, _ => (incorrectPage client form audience, none)

/-! ## What the checks find -/

variable {p} {clients : List Registration} {client : Registration} {uri audience : Str}
  {requested clientId : Option Str}

theorem findClient_ok (h : findClient clients clientId = .ok client) :
    client ∈ clients ∧ clientId = some client.clientId ∧ client.clientId ≠ [] ∧
      clients.find? (fun row ↦ row.clientId == client.clientId) = some client := by
  unfold findClient at h
  split at h
  · cases h
  · next text hgiven =>
    split at h
    · cases h
    · split at h
      · cases h
      · next found hfound =>
        obtain rfl := Except.ok.inj h
        have hid : found.clientId = text := by simpa using List.find?_some hfound
        unfold given at hgiven
        split at hgiven
        · next value =>
          split_ifs at hgiven with hempty
          obtain rfl := Option.some.inj hgiven
          rw [hid]
          exact ⟨List.mem_of_find?_eq_some hfound, rfl, hempty, hfound⟩
        · cases hgiven

theorem redirectUri_ok (h : redirectUri client requested = .ok uri) :
    uri ∈ client.redirectUris ∧ ∀ text, requested = some text → text = uri := by
  unfold redirectUri at h
  split at h
  · split at h
    · next sole hsole =>
      rw [hsole, ← Except.ok.inj h]
      exact ⟨List.mem_singleton_self _, fun text htext ↦ absurd htext.symm (Option.some_ne_none _)⟩
    · cases h
  · next text =>
    split_ifs at h with hmem
    rw [← Except.ok.inj h]
    exact ⟨hmem, fun other hother ↦ (Option.some.inj hother).symm⟩

theorem findTarget_ok (h : findTarget clients clientId requested = .ok (client, uri)) :
    findClient clients clientId = .ok client ∧ redirectUri client requested = .ok uri := by
  unfold findTarget at h
  split at h
  · cases h
  · next found hfound =>
    split at h
    · cases h
    · next target htarget =>
      obtain ⟨rfl, rfl⟩ := Prod.mk.inj (Except.ok.inj h)
      exact ⟨hfound, htarget⟩

theorem checkResource_ok {resource : Option Str} (h : p.checkResource resource = .ok audience) :
    audience = p.mcpResource := by
  unfold Provider.checkResource at h
  split at h
  · exact (Except.ok.inj h).symm
  · split at h
    · cases h
    · exact (Except.ok.inj h).symm

theorem checkForm_ok {query : List (Str × Str)} {challenge resource : Str}
    (h : checkForm p query = .ok (challenge, resource)) :
    challenge = (queryGet query "code_challenge").getD [] ∧ isChallenge challenge = true ∧
      resource = p.mcpResource := by
  unfold checkForm at h
  split_ifs at h with htype hmethod
  dsimp only at h
  split_ifs at h with hchallenge
  split at h
  · cases h
  · next found hfound =>
    obtain ⟨rfl, rfl⟩ := Prod.mk.inj (Except.ok.inj h)
    exact ⟨rfl, (Bool.not_eq_false _).mp hchallenge, checkResource_ok hfound⟩

/-- A page that is no error is the consent screen of a request that passes. -/
theorem authorizeForm_page {query : List (Str × Str)} {html : Str}
    (h : authorizeForm p clients query = .page 200 html none) : ∃ client uri,
    findTarget clients (queryGet query "client_id") (queryGet query "redirect_uri") =
      .ok (client, uri) ∧
    isChallenge ((queryGet query "code_challenge").getD []) = true ∧
    html = consentPage client.clientName (hiddenFields client.clientId uri
      ((queryGet query "code_challenge").getD []) p.mcpResource
      ((queryGet query "state").getD []) ((queryGet query "scope").getD [])) none := by
  unfold authorizeForm at h
  split at h
  · next f hf =>
    unfold failed at h
    split at h
    · cases h
    · cases h
  · next found target htarget =>
    split at h
    · next f hf =>
      unfold errorRedirect redirectWith at h
      split at h
      · split at h
        · cases h
        · cases h
      · cases h
    · next challenge resource hform =>
      obtain ⟨rfl, hchallenge, rfl⟩ := checkForm_ok hform
      exact ⟨found, target, htarget, hchallenge, (Answer.page.inj h).2.1.symm⟩

theorem given_of_ne_nil {s : Str} (h : s ≠ []) : given (some s) = some s := if_neg h

theorem getD_given (s : Str) : (given (some s)).getD [] = s := by
  rw [given]
  split
  · next h => exact h.symm
  · rfl

/-- The consent screen posted as it is. -/
theorem readForm_submission {username password clientId uri challenge : Str}
    (clientName : Option Str) (resource state scope : Str) (error : Option Str)
    (huser : username ≠ []) (hpassword : password ≠ []) (hclient : asPosted clientId ≠ [])
    (huri : asPosted uri ≠ []) (hchallenge : asPosted challenge ≠ []) :
    readForm (submission username password (inputs (consentPage clientName
      (hiddenFields clientId uri challenge resource state scope) error))) =
    some { clientId := asPosted clientId, redirectUri := asPosted uri
           codeChallenge := asPosted challenge, resource := asPosted resource
           scope := asPosted scope, username := username, password := password
           state := asPosted state } := by
  rw [submission_consentPage]
  let fields := (hiddenFields clientId uri challenge resource state scope).map
    (fun field ↦ (field.1, asPosted field.2)) ++
      [(str "username", username), (str "password", password)]
  have hget (name : String) (value : Str) (h : queryGet fields name = some value) :
      formGet fields name = given (some value) := congrArg given h
  unfold readForm
  rw [hget "username" username rfl, hget "password" password rfl,
    hget "client_id" (asPosted clientId) rfl, hget "redirect_uri" (asPosted uri) rfl,
    hget "code_challenge" (asPosted challenge) rfl, hget "resource" (asPosted resource) rfl,
    hget "scope" (asPosted scope) rfl, hget "state" (asPosted state) rfl, getD_given, getD_given,
    getD_given, given_of_ne_nil huser, given_of_ne_nil hpassword, given_of_ne_nil hclient,
    given_of_ne_nil huri, given_of_ne_nil hchallenge]
  rfl

theorem validRedirectUri_ne_nil {refuses : Str → Bool} (h : validRedirectUri refuses uri = true) :
    uri ≠ [] := by
  rintro rfl
  exact (validRedirectUri_spec h).2.1 rfl

theorem checkResource_own : p.checkResource (orNone p.mcpResource) = .ok p.mcpResource := by
  rw [orNone]
  split
  · rfl
  · rw [Provider.checkResource, if_neg (not_not.mpr rfl)]

theorem checkSubmit_of_target {form : ConsentForm}
    (hclient : findClient clients (some form.clientId) = .ok client)
    (huri : form.redirectUri ∈ client.redirectUris)
    (hchallenge : isChallenge form.codeChallenge = true)
    (hresource : p.checkResource (orNone form.resource) = .ok audience) :
    checkSubmit p clients form = .ok (client, audience) := by
  have htarget : findTarget clients (some form.clientId) (some form.redirectUri) =
      .ok (client, form.redirectUri) := by
    rw [findTarget, hclient]
    dsimp only
    rw [redirectUri, if_pos huri]
  rw [checkSubmit, htarget]
  dsimp only
  rw [if_neg (Bool.not_eq_false _ ▸ hchallenge), hresource]

/-- Whoever is shown the consent screen and types in an account and a password posts a form that
passes: it names the client, the URI and the challenge of the request that was shown, and asks for
the audience of this server.  So with the right password the code is for that request, and goes to
its URI with its state. -/
theorem consent_posted (refuses : Str → Bool) {query : List (Str × Str)} {html : Str}
    (username password : Str) (hpage : authorizeForm p clients query = .page 200 html none)
    (hvalid : ∀ client ∈ clients, isOneLine client.clientId = true ∧
      ∀ uri ∈ client.redirectUris, validRedirectUri refuses uri = true ∧ isOneLine uri = true)
    (hresource : isOneLine p.mcpResource = true)
    (hchallenge : isOneLine ((queryGet query "code_challenge").getD []) = true)
    (huser : username ≠ []) (hpassword : password ≠ []) : ∃ client uri form,
      findTarget clients (queryGet query "client_id") (queryGet query "redirect_uri") =
        .ok (client, uri) ∧
      readForm (submission username password (inputs html)) = some form ∧
      form.username = username ∧ form.password = password ∧
      checkSubmit p clients form = .ok (client, p.mcpResource) ∧
      (∀ accountId code now, codeRow p form p.mcpResource accountId code now =
        { code := code, clientId := client.clientId, accountId := accountId, redirectUri := uri
          codeChallenge := (queryGet query "code_challenge").getD []
          resource := some p.mcpResource
          scope := orNone (asPosted ((queryGet query "scope").getD []))
          expiresAt := now + p.codeTtl * 1000000 }) ∧
      ∀ code, codeRedirect form code = redirectWith uri ((str "code", code) ::
        stateParam (some (asPosted ((queryGet query "state").getD [])))) := by
  obtain ⟨client, uri, htarget, hmatches, rfl⟩ := authorizeForm_page hpage
  obtain ⟨hfound, huri⟩ := findTarget_ok htarget
  obtain ⟨hmem, hid, hnamed, -⟩ := findClient_ok hfound
  obtain ⟨hregistered, -⟩ := redirectUri_ok huri
  obtain ⟨hclientLine, huris⟩ := hvalid client hmem
  obtain ⟨huriValid, huriLine⟩ := huris uri hregistered
  have hasked : (queryGet query "code_challenge").getD [] ≠ [] := by
    intro hnil
    rw [hnil] at hmatches
    exact absurd hmatches (by decide)
  have hform := readForm_submission client.clientName p.mcpResource
    ((queryGet query "state").getD []) ((queryGet query "scope").getD []) none huser hpassword
    ((asPosted_of_isOneLine hclientLine).symm ▸ hnamed)
    ((asPosted_of_isOneLine huriLine).symm ▸ validRedirectUri_ne_nil huriValid)
    ((asPosted_of_isOneLine hchallenge).symm ▸ hasked)
  rw [asPosted_of_isOneLine hclientLine, asPosted_of_isOneLine huriLine,
    asPosted_of_isOneLine hchallenge, asPosted_of_isOneLine hresource] at hform
  exact ⟨client, uri, _, htarget, hform, rfl, rfl,
    checkSubmit_of_target (hid ▸ hfound) hregistered hmatches checkResource_own,
    fun accountId code now ↦ rfl, fun code ↦ rfl⟩

def sampleRegistration : Registration where
  clientId := str "mcp-desktop"
  secretHash := none
  clientName := some (str "Desktop <b>")
  redirectUris := [str "http://localhost/cb"]
  grantTypes := supportedGrants

def sampleQuery : List (Str × Str) :=
  [(str "client_id", str "mcp-desktop"), (str "response_type", str "code"),
    (str "code_challenge", sampleChallenge), (str "state", str "a&b"), (str "scope", str "mcp")]

theorem consent_posted_desktop : ∃ html client uri form,
    authorizeForm sampleProvider [sampleRegistration] sampleQuery = .page 200 html none ∧
    findTarget [sampleRegistration] (some (str "mcp-desktop")) none = .ok (client, uri) ∧
    readForm (submission (str "andrew") (str "pw") (inputs html)) = some form ∧
    checkSubmit sampleProvider [sampleRegistration] form =
      .ok (client, sampleProvider.mcpResource) := by
  have htarget : findTarget [sampleRegistration] (queryGet sampleQuery "client_id")
      (queryGet sampleQuery "redirect_uri") = .ok (sampleRegistration, str "http://localhost/cb") :=
    by decide +kernel
  have hform : checkForm sampleProvider sampleQuery =
      .ok (sampleChallenge, str "http://localhost:8200/mcp") := by decide +kernel
  have hpage : authorizeForm sampleProvider [sampleRegistration] sampleQuery = .page 200
      (consentPage (some (str "Desktop <b>")) (hiddenFields (str "mcp-desktop")
        (str "http://localhost/cb") sampleChallenge (str "http://localhost:8200/mcp")
        ((queryGet sampleQuery "state").getD []) ((queryGet sampleQuery "scope").getD [])) none)
      none := by
    rw [authorizeForm, htarget]
    dsimp only
    rw [hform]
    rfl
  obtain ⟨client, uri, form, htarget', hread, -, -, hchecked, -⟩ :=
    consent_posted (fun _ ↦ false) (str "andrew") (str "pw")
      hpage (by decide +kernel) (by decide +kernel) (by decide +kernel) (by decide) (by decide)
  exact ⟨_, client, uri, form, hpage, htarget', hread, hchecked⟩

/-! ## What a post comes to -/

variable {hasher : Auth.Hasher} {people : List Person} {wait now : ℤ} {form : ConsentForm}
  {code url : Str} {row : CodeRow}

end DatumSync.OAuth
