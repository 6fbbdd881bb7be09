import DatumSync.Proxy.Request

/-!
# Where an injected credential goes

What the client puts on the wire of a request, and when a proxied call is confined: the first hop
goes to the address of the base URL with the injected value alone under its name, and no later hop
carries that value.

Of the client only the documented treatment of its arguments is used: every header entry is sent,
names that differ in case included; parameters that are given replace the query of the URL; and
user information in a URL becomes an `Authorization` header in the place of all others.  Headers
the client adds of its own (`Host`, `Accept`, cookies) are left out.
-/

namespace DatumSync.Proxy

open Python

/-- How the HTTP client reads a URL. -/
structure Client where
  /-- The `Authorization` value made of the user information of a URL. -/
  basicAuth : Str → Option Str
  /-- The query parameters of a URL. -/
  queryOf : Str → List (Str × Str)

variable (client : Client)

def sentHeaders (request : Request) : List (Str × Str) :=
  match client.basicAuth request.url with
  | none => request.headers.items
  | some basic =>
    (stripAuth request.headers).items ++ [(str "Authorization", basic)]

def sentQuery (request : Request) : List (Str × Str) :=
  match request.params with
  | some params => params.items
  | none => client.queryOf request.url

/-- Two header names are one up to case. -/
def sameHeader (a b : Str) : Bool := asciiLower a == asciiLower b

/-- The values a request carries under the injected name. -/
def Injection.seen : Injection → Request → List Str
  | header name _, request =>
    ((sentHeaders client request).filter fun item ↦ sameHeader item.1 name).map Prod.snd
  | param name _, request =>
    ((sentQuery client request).filter fun item ↦ item.1 == name).map Prod.snd

/-- Some header or query parameter of the request has the value. -/
def Leaks (value : Str) (request : Request) : Prop :=
  value ∈ (sentHeaders client request).map Prod.snd ∨
    value ∈ (sentQuery client request).map Prod.snd

/-- Confinement of the injected credential to the address of the base URL. -/
structure Confined (base : Str) (i : Injection) (first : Request) (later : List Request) :
    Prop where
  address : (target first.url).address = (target base).address
  alone : i.seen client first = [i.value]
  kept : ∀ request ∈ later, ¬ Leaks client i.value request

/-! ## The redirects -/

variable (outside : Outside)

/-- The URL of the next hop, where there is one. -/
def followed (hop : ℕ) (request : Request) : Option Str :=
  match outside.answer hop request with
  | .error _ => none
  | .ok response =>
    if response.isRedirect ∧ response.location.getD [] ≠ [] then
      (redirectUrl outside request (response.location.getD [])).toOption
    else none

/-- The chain of upstream redirects from one request on, at most `fuel` of them. -/
def redirects (headers : Dict) : (fuel hop : ℕ) → Request → List Str
  | 0, _, _ => []
  | fuel + 1, hop, request =>
    match followed outside hop request with
    | none => []
    | some url => url :: redirects headers fuel (hop + 1) (redirectRequest headers url)

/-- One hop: the request is sent, and the exchange goes on where a redirect is followed. -/
theorem exchange_succ (headers : Dict) (fuel hop : ℕ) (request : Request) :
    (exchange outside headers (fuel + 1) hop request).1 =
      request :: match followed outside hop request with
        | none => []
        | some url =>
          (exchange outside headers fuel (hop + 1) (redirectRequest headers url)).1 := by
  rw [exchange, followed]
  cases hanswer : outside.answer hop request with
  | error e => rfl
  | ok response =>
    dsimp only
    cases hredirect : response.isRedirect with
    | false => simp
    | true =>
      by_cases hlocation : response.location.getD [] = []
      · simp [hlocation]
      · cases hurl : redirectUrl outside request (response.location.getD []) with
        | error e => simp [hlocation, Except.toOption]
        | ok url => simp [hlocation, Except.toOption]

/-- A whole exchange sends the request and one more for each redirect it follows. -/
theorem exchange_sent (headers : Dict) (fuel hop : ℕ) (request : Request) :
    (exchange outside headers (fuel + 1) hop request).1 =
      request :: (redirects outside headers fuel hop request).map (redirectRequest headers) := by
  induction fuel generalizing hop request with
  | zero =>
    rw [exchange_succ, redirects]
    cases followed outside hop request <;> rfl
  | succ fuel ih =>
    rw [exchange_succ, redirects]
    cases followed outside hop request with
    | none => rfl
    | some url => exact congrArg (request :: ·) (ih _ _)

/-! ## The condition -/

/-- No caller header has the injected name in another case, unless the client replaces all of them
by the injected value itself. -/
def Injection.Unrivalled (headers : Dict) (url : Str) : Injection → Prop
  | header name value =>
    match isAuthorization name, client.basicAuth url with
    | true, some basic => basic = value
    | _, _ => ∀ k v, (k, v) ∈ headers → sameHeader k name = true → k = name
  | param _ _ => True

/-- The injected value stands in a header `_strip_auth` keeps: the injected one, or one of the
caller's own. -/
def Injection.Survives (headers : Dict) : Injection → Prop
  | header name value =>
    isAuthorization name = false ∨
      ∃ k, k ≠ name ∧ (k, value) ∈ headers ∧ isAuthorization k = false
  | param _ value => ∃ k, (k, value) ∈ headers ∧ isAuthorization k = false

/-- The URL itself holds the value, as user information or in its query. -/
def ShownBy (value url : Str) : Prop :=
  client.basicAuth url = some value ∨ value ∈ (client.queryOf url).map Prod.snd

/-- The base URL names a host, the caller sends no other case of the injected header, and where
redirects are followed the credential is stripped and no redirect URL shows it. -/
structure Confines (call : Call) (base : Str) (i : Injection) : Prop where
  host : hostname (target base).netloc ≠ none
  unrivalled : i.Unrivalled client call.headers (upstreamUrl base call.path)
  stripped : ∀ url ∈ redirects outside (i.apply call.headers call.queryParams).1 maxRedirects 0
    (firstRequest call base (i.apply call.headers call.queryParams)),
    ¬ i.Survives call.headers ∧ ¬ ShownBy client i.value url

/-! ## The first hop -/

variable {client outside}

theorem prepare_eq {call : Call} {config secret : List (Str × Json)} {base : Str} {i : Injection}
    {request : Request} (hload : loadConnection outside call = .ok (config, secret))
    (hbase : baseUrl outside call config = .ok base)
    (hinjection : injection outside config secret = .ok (some i))
    (h : prepare outside call = .ok request) :
    validateUpstreamUrl outside (upstreamUrl base call.path) = .ok () ∧
      request = firstRequest call base (i.apply call.headers call.queryParams) := by
  rw [prepare, hload] at h
  split at h
  · cases h
  · dsimp only at h
    rw [hbase] at h
    dsimp only at h
    cases hvalid : validateUpstreamUrl outside (upstreamUrl base call.path) with
    | error e =>
      rw [hvalid] at h
      cases h
    | ok =>
      rw [hvalid, injectAuth, hinjection] at h
      exact ⟨rfl, (Except.ok.inj h).symm⟩

theorem hostname_of_valid {url : Str} (h : validateUpstreamUrl outside url = .ok ()) :
    hostname (target url).netloc ≠ none := by
  intro hnone
  rw [validateUpstreamUrl, hnone] at h
  dsimp only at h
  split at h
  · cases h
  · split at h
    · cases h
    · cases h

theorem isPath_slashed (path : Str) : IsPath (slashed path) := by
  unfold slashed
  split
  · exact .inr ⟨path, rfl⟩
  · next h =>
    cases path with
    | nil => exact .inl rfl
    | cons c rest =>
      have hstart : startsWith (c :: rest) (str "/") = true := by
        by_contra hfalse
        exact h ⟨List.cons_ne_nil c rest, Bool.eq_false_iff.mpr hfalse⟩
      obtain ⟨tail, htail⟩ := startsWith_iff.mp hstart
      exact .inr ⟨tail, htail.symm⟩

/-- A validated upstream URL goes to the address of its base exactly when the base names a host:
without one, the path brings it in. -/
theorem address_upstreamUrl_iff {base path : Str}
    (hvalid : validateUpstreamUrl outside (upstreamUrl base path) = .ok ()) :
    (target (upstreamUrl base path)).address = (target base).address ↔
      hostname (target base).netloc ≠ none := by
  constructor
  · intro haddress
    have hhost : hostname (target (upstreamUrl base path)).netloc =
        hostname (target base).netloc := congrArg (fun a ↦ a.2.1) haddress
    rw [← hhost]
    exact hostname_of_valid hvalid
  · intro hhost
    have hnetloc : (target base).netloc ≠ [] := by
      intro hnil
      rw [hnil] at hhost
      exact hhost rfl
    rw [upstreamUrl, target_rstrip (isPath_slashed path) hnetloc]

theorem mem_stripAuth {headers : Dict} {k v : Str} :
    (k, v) ∈ stripAuth headers ↔ (k, v) ∈ headers ∧ isAuthorization k = false := by
  rw [stripAuth, Dict.mem_filterKeys, Bool.not_eq_true']

theorem isAuthorization_of_same {a b : Str} (h : sameHeader a b = true) :
    isAuthorization a = isAuthorization b := by
  rw [isAuthorization, isAuthorization, eq_of_beq h]

/-- Setting a header leaves its name alone among its variants exactly when there was no variant. -/
theorem set_unrivalled_iff {headers : Dict} {name value : Str} :
    (∀ k v, (k, v) ∈ headers.set name value → sameHeader k name = true → k = name) ↔
      ∀ k v, (k, v) ∈ headers → sameHeader k name = true → k = name := by
  constructor
  · intro h k v hk hsame
    by_contra hne
    exact hne (h k v (Dict.mem_set.mpr (.inr ⟨hne, hk⟩)) hsame)
  · intro h k v hk hsame
    rcases Dict.mem_set.mp hk with ⟨rfl, -⟩ | ⟨-, hold⟩
    · rfl
    · exact h k v hold hsame

theorem seen_header_iff {headers : Dict} {name value : Str} {request : Request}
    (hheaders : request.headers = headers.set name value) :
    (Injection.header name value).seen client request = [value] ↔
      (Injection.header name value).Unrivalled client headers request.url := by
  have hset : (name, value) ∈ headers.set name value := Dict.mem_set.mpr (.inl ⟨rfl, rfl⟩)
  have hself : sameHeader name name = true := beq_self_eq_true _
  rw [Injection.seen, sentHeaders, Injection.Unrivalled, hheaders]
  cases hbasic : client.basicAuth request.url with
  | none =>
    dsimp only
    rw [Dict.filter_values_eq_singleton_iff (p := (sameHeader · name)) hset hself,
      set_unrivalled_iff]
    cases isAuthorization name <;> rfl
  | some basic =>
    dsimp only
    rw [List.filter_append, List.map_append]
    cases hname : isAuthorization name with
    | true =>
      have hstripped : (stripAuth (headers.set name value)).items.filter
          (fun item ↦ sameHeader item.1 name) = [] := by
        apply List.filter_eq_nil_iff.mpr
        intro item hitem hsame
        have hkept := (mem_stripAuth.mp hitem).2
        rw [isAuthorization_of_same hsame, hname] at hkept
        cases hkept
      have hbasicName : sameHeader (str "Authorization") name = true := by
        rw [sameHeader, eq_of_beq hname]
        decide +kernel
      have hlast : [(str "Authorization", basic)].filter (fun item ↦ sameHeader item.1 name) =
          [(str "Authorization", basic)] := List.filter_cons_of_pos hbasicName
      rw [hstripped, hlast]
      simp
    | false =>
      have hkept : (name, value) ∈ stripAuth (headers.set name value) :=
        mem_stripAuth.mpr ⟨hset, hname⟩
      have hbasicName : ¬ sameHeader (str "Authorization") name = true := by
        intro hsame
        rw [← isAuthorization_of_same hsame] at hname
        exact absurd hname (by decide +kernel)
      have hlast : [(str "Authorization", basic)].filter (fun item ↦ sameHeader item.1 name) = [] :=
        List.filter_cons_of_neg hbasicName
      rw [hlast, List.map_nil, List.append_nil,
        Dict.filter_values_eq_singleton_iff (p := (sameHeader · name)) hkept hself]
      refine Iff.trans ?_ (@set_unrivalled_iff headers name value)
      constructor
      · intro h k v hk hsame
        exact h k v (mem_stripAuth.mpr ⟨hk, (isAuthorization_of_same hsame).trans hname⟩) hsame
      · intro h k v hk hsame
        exact h k v (mem_stripAuth.mp hk).1 hsame

/-- The injected value is alone under its name on the first hop exactly when it has no rival. -/
theorem seen_first_iff (call : Call) (base : Str) (i : Injection) :
    i.seen client (firstRequest call base (i.apply call.headers call.queryParams)) = [i.value] ↔
      i.Unrivalled client call.headers (upstreamUrl base call.path) := by
  cases i with
  | header name value => exact seen_header_iff rfl
  | param name value =>
    refine iff_of_true ?_ trivial
    have hset : (name, value) ∈ call.queryParams.set name value :=
      Dict.mem_set.mpr (.inl ⟨rfl, rfl⟩)
    exact (Dict.filter_values_eq_singleton_iff (p := (· == name)) hset (beq_self_eq_true _)).mpr
      fun k v _ hk ↦ eq_of_beq hk

/-! ## The later hops -/

theorem survives_iff (headers params : Dict) (i : Injection) :
    (∃ k, (k, i.value) ∈ stripAuth (i.apply headers params).1) ↔ i.Survives headers := by
  cases i with
  | header name value =>
    constructor
    · rintro ⟨k, hk⟩
      obtain ⟨hset, hkept⟩ := mem_stripAuth.mp hk
      rcases Dict.mem_set.mp hset with ⟨rfl, -⟩ | ⟨hne, hold⟩
      · exact .inl hkept
      · exact .inr ⟨k, hne, hold, hkept⟩
    · rintro (hname | ⟨k, hne, hold, hkept⟩)
      · exact ⟨name, mem_stripAuth.mpr ⟨Dict.mem_set.mpr (.inl ⟨rfl, rfl⟩), hname⟩⟩
      · exact ⟨k, mem_stripAuth.mpr ⟨Dict.mem_set.mpr (.inr ⟨hne, hold⟩), hkept⟩⟩
  | param name value => exact exists_congr fun k ↦ mem_stripAuth

theorem mem_sentHeaders_redirect {headers : Dict} {url value : Str} :
    value ∈ (sentHeaders client (redirectRequest headers url)).map Prod.snd ↔
      (∃ k, (k, value) ∈ stripAuth headers) ∨ client.basicAuth url = some value := by
  have hitems : ∀ d : Dict, value ∈ d.items.map Prod.snd ↔ ∃ k, (k, value) ∈ d := by
    intro d
    rw [List.mem_map]
    exact ⟨fun ⟨⟨k, v⟩, hk, hv⟩ ↦ ⟨k, hv ▸ hk⟩, fun ⟨k, hk⟩ ↦ ⟨_, hk, rfl⟩⟩
  have htwice : ∀ k, (k, value) ∈ stripAuth (stripAuth headers) ↔
      (k, value) ∈ stripAuth headers := fun k ↦ by
    rw [mem_stripAuth]
    exact and_iff_left_of_imp fun h ↦ (mem_stripAuth.mp h).2
  rw [sentHeaders, redirectRequest]
  cases client.basicAuth url with
  | none =>
    rw [hitems]
    simp
  | some basic =>
    dsimp only
    rw [List.map_append, List.mem_append, hitems, exists_congr htwice]
    simp [eq_comm]

theorem leaks_redirect_iff {headers params : Dict} {i : Injection} {url : Str} :
    Leaks client i.value (redirectRequest (i.apply headers params).1 url) ↔
      i.Survives headers ∨ ShownBy client i.value url := by
  rw [Leaks, mem_sentHeaders_redirect, survives_iff, ShownBy, or_assoc]
  rfl

/-! ## The whole call -/

/-- A proxied call that reaches the upstream is confined exactly when the base URL names a host, the
injected header comes alone, and every redirect followed finds the credential stripped. -/
theorem proxyRequest_confined_iff {call : Call} {config secret : List (Str × Json)} {base : Str}
    {i : Injection} {first : Request} {later : List Request}
    (hload : loadConnection outside call = .ok (config, secret))
    (hbase : baseUrl outside call config = .ok base)
    (hinjection : injection outside config secret = .ok (some i))
    (hsent : (proxyRequest outside call).1 = first :: later) :
    Confined client base i first later ↔ Confines client outside call base i := by
  rw [proxyRequest] at hsent
  cases hprepare : prepare outside call with
  | error e =>
    rw [hprepare] at hsent
    cases hsent
  | ok request =>
    rw [hprepare] at hsent
    obtain ⟨hvalid, rfl⟩ := prepare_eq hload hbase hinjection hprepare
    dsimp only at hsent
    rw [exchange_sent] at hsent
    obtain ⟨rfl, rfl⟩ := List.cons.inj hsent
    have hkept : (∀ request ∈ (redirects outside
        (i.apply call.headers call.queryParams).1 maxRedirects 0
        (firstRequest call base (i.apply call.headers call.queryParams))).map
          (redirectRequest (i.apply call.headers call.queryParams).1),
        ¬ Leaks client i.value request) ↔
        ∀ url ∈ redirects outside (i.apply call.headers call.queryParams).1 maxRedirects 0
          (firstRequest call base (i.apply call.headers call.queryParams)),
          ¬ i.Survives call.headers ∧ ¬ ShownBy client i.value url := by
      rw [List.forall_mem_map]
      exact forall₂_congr fun url _ ↦ (not_congr leaks_redirect_iff).trans not_or
    constructor
    · intro h
      exact ⟨(address_upstreamUrl_iff hvalid).mp h.address, (seen_first_iff call base i).mp h.alone,
        hkept.mp h.kept⟩
    · intro h
      exact ⟨(address_upstreamUrl_iff hvalid).mpr h.host,
        (seen_first_iff call base i).mpr h.unrivalled, hkept.mpr h.stripped⟩

/-! ## An upstream that redirects to another host -/

/-- The first hop answers with a redirect to another host, the second with a page. -/
def redirectingApi (rule : List (Str × Json)) : Outside where
  acquire := .ok ()
  connection _ := .ok (some {
    type := str "http"
    tier := 1
    config := [(str "base_url", .text (str "https://api.example.com/")),
      (str "auth_inject", .obj rule)] })
  secret _ := .ok [(str "api_key", .text (str "sk-test"))]
  netlocOk _ := true
  getaddrinfo _ _ := .ok (some [str "93.184.216.34"])
  ipIsBlocked _ := false
  answer hop _ := .ok {
    status := if hop = 0 then 302 else 200
    location := if hop = 0 then some (str "https://cdn.example.net/a") else none
    contentType := str "text/plain"
    content := [] }
  join _ location := .ok location
  strOf v := match v with
    | .text s => s
    | _ => []
  reprOf _ := []

def bearerRule : List (Str × Json) :=
  [(str "type", .text (str "bearer")), (str "secret_field", .text (str "api_key"))]

def headerRule : List (Str × Json) :=
  [(str "type", .text (str "header")), (str "secret_field", .text (str "api_key")),
    (str "header", .text (str "X-Api-Key"))]

/-- An agent with a grant reads a path of the connection. -/
def agentCall : Call where
  principal :=
    { accountId := 1
      name := str "account"
      maxTier := 4
      repoScope := []
      isAdmin := false
      source := .agent
      vaultScope := none
      rateLimitPerMin := none
      agentId := some 1
      agentName := some (str "agent")
      proxyGrants := some [str "api"] }
  connectionName := str "api"
  method := str "get"
  path := str "v1/items"
  headers := .empty
  body := .null
  queryParams := .empty

/-- URLs without user information and without a query. -/
def plainClient : Client where
  basicAuth _ := none
  queryOf _ := []

theorem proxyRequest_confined_iff_bearer :
    ∃ first later, (proxyRequest (redirectingApi bearerRule) agentCall).1 = first :: later ∧
      (Confined plainClient (str "https://api.example.com/")
          (.header (str "Authorization") (str "Bearer sk-test")) first later ↔
        Confines plainClient (redirectingApi bearerRule) agentCall
          (str "https://api.example.com/")
          (.header (str "Authorization") (str "Bearer sk-test"))) :=
  ⟨_, _, by rfl, proxyRequest_confined_iff (by rfl) (by rfl) (by rfl) (by rfl)⟩

/-- A `header` rule: the key goes along to the host the upstream redirects to. -/
theorem headerRule_not_confined :
    ∃ first second, (proxyRequest (redirectingApi headerRule) agentCall).1 = [first, second] ∧
      (target second.url).netloc = str "cdn.example.net" ∧
      (str "X-Api-Key", str "sk-test") ∈ second.headers ∧
      ¬ Confined plainClient (str "https://api.example.com/")
        (.header (str "X-Api-Key") (str "sk-test")) first [second] := by
  refine ⟨_, _, rfl, by decide +kernel, ?_, fun h ↦ ?_⟩
  · exact mem_stripAuth.mpr ⟨Dict.mem_set.mpr (.inl ⟨rfl, rfl⟩), by decide +kernel⟩
  · refine h.kept _ List.mem_cons_self (.inl ?_)
    decide +kernel

end DatumSync.Proxy
