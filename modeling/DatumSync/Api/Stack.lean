import DatumSync.Api.AuditTrail
import DatumSync.Auth.Issuance
import DatumSync.Foundation.Projection
import DatumSync.Ratelimit.Window

/-!
# The middleware every request passes

`trace_and_audit` is entered first, then `authenticate`, then `rate_limit`, then the handler.  The
application is a machine: requests are at any of these points at the same time, while commands,
sign-ins and other requests write the credential tables.  The statements that set `last_used_at` are
among those writes, and the lookup of one request is taken as one read.  A handler may write audit
rows of its own, under the trace of its request: a sign-in that fails, a proxied request, a call of
the endpoint.
-/

namespace DatumSync.Api

open Auth Foundation Python

/-! ## `config` -/

def authDisabled (raw : Option Str) : Bool := asciiLower (strip (raw.getD [])) == str "off"

def loopbackHosts : List Str := [str "127.0.0.1", str "::1", str "localhost"]

/-- `is_loopback_client`, for the host of the peer. -/
def isLoopbackClient (client : Option Str) : Bool :=
  match client with
  | none => true
  | some host =>
    let host := if startsWith host (str "::ffff:") then host.drop 7 else host
    loopbackHosts.contains host || startsWith host (str "127.")

/-! ## The paths -/

def publicPaths : List Str :=
  [str "/health",
    str "/.well-known/oauth-authorization-server", str "/.well-known/oauth-protected-resource",
    str "/oauth/register", str "/oauth/authorize", str "/oauth/token", str "/oauth/revoke",
    str "/docs", str "/openapi.json", str "/ui", str "/ui/login", str "/ui/logout", str "/ui/v2"]

def publicPrefixes : List Str := [str "/ui/static/", str "/v2/"]

def cookiePaths : List Str := [str "/rest/v1/", str "/ui/", str "/serve/"]

def isPublic (path : Str) : Bool :=
  publicPaths.contains path || publicPrefixes.any (startsWith path)

def allowsCookie (path : Str) : Bool := cookiePaths.any (startsWith path)

/-! ## A request and what is answered -/

structure Env where
  provider : OAuth.Provider
  sessionTtl : ℤ
  /-- `os.getenv("DATUM_SYNC_AUTH")` -/
  auth : Option Str
  /-- `config.PUBLIC_URL` -/
  publicUrl : Str

/-- What the middleware reads of a request that comes in. -/
structure Call where
  method : Str
  path : Str
  authorization : Option Str
  /-- `request.cookies.get(SESSION_COOKIE)` -/
  cookie : Option Str
  /-- the host of `request.client` -/
  client : Option Str
  /-- `X-Trace-Id` -/
  traceHeader : Option Str

structure Answer where
  status : ℕ
  code : Str
  message : Str
  detail : List (Str × Json)
  traceId : Str
  headers : List (Str × Str)

/-- What a middleware does with a request: pass it on, answer it, or raise. -/
inductive Verdict (α : Type) where
  | pass (attached : α)
  | answered (answer : Answer)
  | raised (e : Exc)

/-- `request.state.principal`: what a credential stands for, or `DEV_PRINCIPAL`. -/
inductive Caller where
  | credential (principal : Principal)
  | dev

def devVaultScope : Vault.Scope where
  fields := [(str "read", .arr [.text (str "**")]), (str "write", .arr [.text (str "**")]),
    (str "quarantine", .arr [.text (str "**")]), (str "promote", .arr [.text (str "**")])]
  valid := by decide

/-- The fields of the principal.  The source of `DEV_PRINCIPAL` is none that a credential has: that
is the constructor `dev`. -/
def Caller.principal : Caller → Principal
  | credential principal => principal
  | dev => {
      accountId := 0, name := str "auth-disabled", maxTier := 4, repoScope := [str "*"]
      isAdmin := true, source := .token, vaultScope := some devVaultScope
      rateLimitPerMin := none }

/-- `Trace.mint`, with the id that is drawn. -/
def mintTrace (id : Str) (call : Call) : Audit.Trace :=
  ⟨id, if call.traceHeader = some [] then none else call.traceHeader⟩

variable (env : Env)

def Env.wwwAuthenticate : Str :=
  str "Bearer resource_metadata=\"" ++ env.publicUrl ++
    str "/.well-known/oauth-protected-resource\""

/-- `authenticate`.  Every `ApiError` of `require_auth` carries the challenge. -/
def authenticate (trace : Audit.Trace) (call : Call) (now dbNow : ℤ) (db : Db) :
    Verdict (Option Caller) :=
  if isPublic call.path then .pass none
  else if authDisabled env.auth then
    if isLoopbackClient call.client then .pass (some .dev)
    else .answered {
      status := 403, code := str "FORBIDDEN"
      message := str "this server is running with authentication disabled and will only answer " ++
        str "the machine it runs on"
      detail := [], traceId := trace.id, headers := [] }
  else match requireAuth env.provider now dbNow db call.authorization call.cookie
      (allowsCookie call.path) with
  | .ok (principal, _) => .pass (some (.credential principal))
  | .error (.api status code message detail) => .answered {
      status := status, code := code, message := message, detail := detail, traceId := trace.id
      headers := [(str "WWW-Authenticate", env.wwwAuthenticate)] }
  | .error e => .raised e

def rateLimit (trace : Audit.Trace) (caller : Option Caller) (now : ℚ) (hits : Ratelimit.Hits) :
    Ratelimit.Hits × Verdict Unit :=
  match caller with
  | none => (hits, .pass ())
  | some caller =>
    match Ratelimit.check .doubles caller.principal.accountId caller.principal.rateLimitPerMin now
        hits with
    | (hits, .error e) => (hits, .raised e)
    | (hits, .ok wait) =>
      if wait = 0 then (hits, .pass ())
      else (hits, .answered {
        status := 429, code := str "RATE_LIMITED"
        message := str "rate limit of " ++ decimal (caller.principal.rateLimitPerMin.getD 0) ++
          str " requests per minute exceeded; retry in " ++ decimal wait ++ str " seconds"
        detail := [], traceId := trace.id, headers := [(str "Retry-After", decimal wait)] })

/-! ## The machine -/

/-- Where a request is: past `authenticate`, in its handler, or on its way out with a status. -/
inductive Stage where
  | authenticated
  | entered
  | answered (status : ℕ)
  deriving DecidableEq

structure Flight where
  trace : Audit.Trace
  call : Call
  caller : Option Caller
  stage : Stage

/-- A request whose handler has been entered, with the moment at which it passed `rate_limit`. -/
structure Served where
  trace : Audit.Trace
  call : Call
  caller : Option Caller
  moment : ℚ

/-- A request that `trace_and_audit` has seen out. -/
structure Finished where
  trace : Audit.Trace
  request : Request
  status : ℕ

/-- The state of the application, and what it has done. -/
structure App where
  store : Store
  hits : Ratelimit.Hits
  /-- `time.monotonic()` at the last check. -/
  clock : ℚ
  log : Audit.Log
  /-- The part of the log that the handlers have written and lost. -/
  handled : Audit.Log
  /-- The part of `_audit_row`. -/
  own : Audit.Log
  flights : List Flight
  served : List Served
  finished : List Finished

inductive Step where
  | write (w : Write)
  /-- A request comes in, is given a trace id and authenticated. -/
  | arrive (id : Str) (call : Call) (now dbNow : ℤ)
  /-- It reaches `rate_limit`. -/
  | enter (id : Str) (now : ℚ)
  /-- Its handler writes an audit row, which the database accepts or not. -/
  | record (id : Str) (row : Audit.Row) (accepted : Bool)
  /-- Its handler answers, or raises, which counts as 500. -/
  | respond (id : Str) (status : ℕ)
  /-- It passes `_audit_row` on its way out. -/
  | leave (id : Str) (pool : Pool) (durationMs : ℤ)

/-- The stage in which a middleware leaves a request. -/
def Verdict.stage {α : Type} (next : Stage) : Verdict α → Stage
  | pass _ => next
  | answered answer => .answered answer.status
  | raised _ => .answered 500

/-- The principal that a request has been given. -/
def Verdict.caller : Verdict (Option Caller) → Option Caller
  | pass attached => attached
  | _ => none

namespace App

/-- No request has had this id. -/
def isFresh (s : App) (id : Str) : Bool :=
  (s.flights.all fun flight ↦ flight.trace.id != id) &&
    s.finished.all fun done ↦ done.trace.id != id

/-- The request of an id, if it is at a stage that fits. -/
def flight (s : App) (id : Str) (fits : Stage → Bool) : Option Flight :=
  s.flights.find? fun flight ↦ flight.trace.id == id && fits flight.stage

def others (s : App) (id : Str) : List Flight := s.flights.filter fun flight ↦ flight.trace.id != id

end App

def Flight.request (flight : Flight) (durationMs : ℤ) : Request where
  path := flight.call.path
  method := flight.call.method
  authorization := flight.call.authorization
  principal := flight.caller.map Caller.principal
  durationMs := durationMs

def Flight.served (flight : Flight) (moment : ℚ) : Served :=
  ⟨flight.trace, flight.call, flight.caller, moment⟩

def Stage.status : Stage → Option ℕ
  | answered status => some status
  | _ => none

/-- The application.  `uuid4` draws a new id, and `time.monotonic` does not go back. -/
def application : Machine App Step where
  step s a :=
    match a with
    | .write w => ((credentials env.provider env.sessionTtl).step s.store w).map fun store ↦
        { s with store := store }
    | .arrive id call now dbNow =>
      if s.isFresh id then
        let trace := mintTrace id call
        let verdict := authenticate env trace call now dbNow s.store.db
        some { s with
          flights := ⟨trace, call, verdict.caller, verdict.stage .authenticated⟩ :: s.flights }
      else none
    | .enter id now =>
      if s.clock ≤ now then
        (s.flight id (· == .authenticated)).map fun flight ↦
          let checked := rateLimit flight.trace flight.caller now s.hits
          let stage := checked.2.stage .entered
          { s with
            hits := checked.1
            clock := now
            flights := { flight with stage := stage } :: s.others id
            served := s.served ++ if stage = .entered then [flight.served now] else [] }
      else none
    | .record id row accepted =>
      (s.flight id (· == .entered)).bind fun flight ↦
        if row.traceId = flight.trace.id then
          some { s with
            log := Audit.insertRow (fun _ ↦ accepted) row s.log
            handled := Audit.insertRow (fun _ ↦ accepted) row s.handled }
        else none
    | .respond id status =>
      (s.flight id (· == .entered)).map fun flight ↦
        { s with flights := { flight with stage := .answered status } :: s.others id }
    | .leave id pool durationMs =>
      (s.flight id fun stage ↦ stage.status.isSome).bind fun flight ↦
        flight.stage.status.map fun status ↦
          let request := flight.request durationMs
          { s with
            log := auditRow pool flight.trace request status s.log
            own := auditRow pool flight.trace request status s.own
            flights := s.others id
            finished := s.finished ++ [⟨flight.trace, request, status⟩] }

/-- The application before its first request. -/
def App.initial : App := ⟨.empty, ∅, 0, ⟨[], 0⟩, ⟨[], 0⟩, ⟨[], 0⟩, [], [], []⟩

def Step.writes : Step → List Write
  | write w => [w]
  | _ => []

/-! ## What one step does -/

variable {env} {s t : App} {id : Str}

theorem App.flight_eq_some {fits : Stage → Bool} {flight : Flight}
    (h : s.flight id fits = some flight) :
    flight ∈ s.flights ∧ flight.trace.id = id ∧ fits flight.stage = true := by
  have hfits := List.find?_some h
  rw [Bool.and_eq_true, beq_iff_eq] at hfits
  exact ⟨List.mem_of_find?_eq_some h, hfits⟩

theorem App.mem_of_mem_others {flight : Flight} (h : flight ∈ s.others id) :
    flight ∈ s.flights ∧ flight.trace.id ≠ id := by
  obtain ⟨hmem, hne⟩ := List.mem_filter.mp h
  exact ⟨hmem, bne_iff_ne.mp hne⟩

theorem Verdict.stage_entered {α : Type} (verdict : Verdict α) :
    verdict.stage .entered ≠ .authenticated := by
  cases verdict with
  | pass | answered | raised => exact fun h ↦ Stage.noConfusion h

theorem Verdict.stage_authenticated {α : Type} (verdict : Verdict α) :
    verdict.stage .authenticated ≠ .entered := by
  cases verdict with
  | pass | answered | raised => exact fun h ↦ Stage.noConfusion h

theorem step_write {w : Write} (h : (application env).step s (.write w) = some t) :
    ∃ store, (credentials env.provider env.sessionTtl).step s.store w = some store ∧
      t = { s with store := store } := by
  obtain ⟨store, hstore, ht⟩ := Option.map_eq_some_iff.mp h
  exact ⟨store, hstore, ht.symm⟩

theorem step_arrive {call : Call} {now dbNow : ℤ}
    (h : (application env).step s (.arrive id call now dbNow) = some t) :
    s.isFresh id = true ∧ t = { s with flights :=
      ⟨mintTrace id call, call,
        (authenticate env (mintTrace id call) call now dbNow s.store.db).caller,
        (authenticate env (mintTrace id call) call now dbNow s.store.db).stage .authenticated⟩ ::
          s.flights } := by
  obtain ⟨hfresh, ht⟩ := Option.ite_none_right_eq_some.mp h
  exact ⟨hfresh, (Option.some.inj ht).symm⟩

theorem step_enter {now : ℚ} (h : (application env).step s (.enter id now) = some t) :
    s.clock ≤ now ∧ ∃ flight, s.flight id (· == .authenticated) = some flight ∧
      t = { s with
        hits := (rateLimit flight.trace flight.caller now s.hits).1
        clock := now
        flights := { flight with
          stage := (rateLimit flight.trace flight.caller now s.hits).2.stage .entered } ::
            s.others id
        served := s.served ++
          if (rateLimit flight.trace flight.caller now s.hits).2.stage .entered = .entered then
            [flight.served now] else [] } := by
  obtain ⟨hclock, ht⟩ := Option.ite_none_right_eq_some.mp h
  obtain ⟨flight, hflight, ht⟩ := Option.map_eq_some_iff.mp ht
  exact ⟨hclock, flight, hflight, ht.symm⟩

theorem step_record {row : Audit.Row} {accepted : Bool}
    (h : (application env).step s (.record id row accepted) = some t) :
    ∃ flight, s.flight id (· == .entered) = some flight ∧ row.traceId = flight.trace.id ∧
      t = { s with
        log := Audit.insertRow (fun _ ↦ accepted) row s.log
        handled := Audit.insertRow (fun _ ↦ accepted) row s.handled } := by
  obtain ⟨flight, hflight, ht⟩ := Option.bind_eq_some_iff.mp h
  obtain ⟨htrace, ht⟩ := Option.ite_none_right_eq_some.mp ht
  exact ⟨flight, hflight, htrace, (Option.some.inj ht).symm⟩

theorem step_respond {status : ℕ} (h : (application env).step s (.respond id status) = some t) :
    ∃ flight, s.flight id (· == .entered) = some flight ∧
      t = { s with flights := { flight with stage := .answered status } :: s.others id } := by
  obtain ⟨flight, hflight, ht⟩ := Option.map_eq_some_iff.mp h
  exact ⟨flight, hflight, ht.symm⟩

theorem step_leave {pool : Pool} {durationMs : ℤ}
    (h : (application env).step s (.leave id pool durationMs) = some t) :
    ∃ flight status, flight ∈ s.flights ∧ flight.trace.id = id ∧
      flight.stage = .answered status ∧
      t = { s with
        log := auditRow pool flight.trace (flight.request durationMs) status s.log
        own := auditRow pool flight.trace (flight.request durationMs) status s.own
        flights := s.others id
        finished := s.finished ++ [⟨flight.trace, flight.request durationMs, status⟩] } := by
  obtain ⟨flight, hflight, ht⟩ := Option.bind_eq_some_iff.mp h
  obtain ⟨status, hstatus, ht⟩ := Option.map_eq_some_iff.mp ht
  obtain ⟨hmem, hid, -⟩ := App.flight_eq_some hflight
  refine ⟨flight, status, hmem, hid, ?_, ht.symm⟩
  cases hstage : flight.stage with
  | answered other =>
    rw [hstage] at hstatus
    exact congrArg Stage.answered (Option.some.inj hstatus)
  | _ =>
    rw [hstage] at hstatus
    cases hstatus

theorem projects_credentials : (application env).Projects (credentials env.provider env.sessionTtl)
    App.store Step.writes := by
  intro s a t h
  cases a with
  | write w =>
    obtain ⟨store, hstore, rfl⟩ := step_write h
    exact (Machine.run_cons_eq_some _).mpr ⟨store, hstore, rfl⟩
  | arrive id call now dbNow =>
    obtain ⟨-, rfl⟩ := step_arrive h
    rfl
  | enter id now =>
    obtain ⟨-, flight, -, rfl⟩ := step_enter h
    rfl
  | record id row accepted =>
    obtain ⟨flight, -, -, rfl⟩ := step_record h
    rfl
  | respond id status =>
    obtain ⟨flight, -, rfl⟩ := step_respond h
    rfl
  | leave id pool durationMs =>
    obtain ⟨flight, status, -, -, -, rfl⟩ := step_leave h
    rfl

end DatumSync.Api
