import DatumSync.Api.Stack

/-!
# Which requests reach their handler

In every interleaving of requests with each other and with what writes the credential tables, the
handler behind a path that is not public is entered only for an accepted credential, which the run
had issued before, with the permissions of its account; the window of an account counts the
requests of all its credentials, and it is exact.
-/

namespace DatumSync.Api

open Auth Foundation Python

/-- Why a request that comes in after some statements, at a moment of the server and of the
database, may go on to `rate_limit`, and whom it then acts for. -/
inductive Entitled (env : Env) (before : List Write) (now dbNow : ℤ) (call : Call) :
    Option Caller → Prop
  | unguarded (hpath : isPublic call.path = true) : Entitled env before now dbNow call none
  | loopback (hpath : isPublic call.path = false) (hauth : authDisabled env.auth = true)
      (hclient : isLoopbackClient call.client = true) :
      Entitled env before now dbNow call (some .dev)
  | credential (principal : Principal) (raw hash : Str) (store : Store) (after : Db)
      (hpath : isPublic call.path = false) (hauth : authDisabled env.auth = false)
      (hpresented : bearerToken call.authorization = some raw ∨
        allowsCookie call.path = true ∧ call.cookie = some raw)
      (hhash : env.provider.hashToken raw = .ok hash)
      (hstore : (credentials env.provider env.sessionTtl).run .empty before = some store)
      (haccepted : requireAuth env.provider now dbNow store.db call.authorization call.cookie
        (allowsCookie call.path) = .ok (principal, after))
      (hauthorised : Authorised before principal)
      (hissued : Issued env.provider env.sessionTtl before hash principal) :
      Entitled env before now dbNow call (some (.credential principal))

/-- A request of this id came in within the steps, and was entitled as the tables and the clocks
were then. -/
def Arrived (env : Env) (steps : List Step) (id : Str) (call : Call) (caller : Option Caller) :
    Prop :=
  ∃ past now dbNow later, steps = past ++ .arrive id call now dbNow :: later ∧
    Entitled env (past.flatMap Step.writes) now dbNow call caller

variable {env : Env} {writes : List Write} {call : Call} {caller : Option Caller} {s t : App}
  {steps : List Step}

theorem Arrived.more {id : Str} (a : Step) (h : Arrived env steps id call caller) :
    Arrived env (steps ++ [a]) id call caller := by
  obtain ⟨past, now, dbNow, later, rfl, hentitled⟩ := h
  exact ⟨past, now, dbNow, later ++ [a], List.append_assoc past _ [a], hentitled⟩

/-- What `require_auth` lets in at the end of a run of statements is issued by them. -/
theorem issued_of_requireAuth {p : OAuth.Provider} {sessionTtl now dbNow : ℤ} {store : Store}
    {authorization cookie : Option Str} {allowed : Bool} {principal : Principal} {after : Db}
    (hstore : (credentials p sessionTtl).run .empty writes = some store)
    (h : requireAuth p now dbNow store.db authorization cookie allowed = .ok (principal, after)) :
    ∃ raw hash, p.hashToken raw = .ok hash ∧
      (bearerToken authorization = some raw ∨ allowed = true ∧ cookie = some raw) ∧
      Authorised writes principal ∧ Issued p sessionTtl writes hash principal := by
  unfold requireAuth at h
  split at h
  · next token htoken =>
    obtain ⟨hash, hhash, -⟩ := resolve_sound h
    exact ⟨token, hash, hhash, .inl htoken, (principal_issued hstore hhash).1 after h⟩
  · split at h
    · cases h
    · next value hvalue =>
      split at h
      · cases h
      · obtain ⟨hash, hhash, -⟩ := resolveSession_sound h
        obtain ⟨hallowed, hcookie⟩ := Option.ite_none_right_eq_some.mp hvalue
        exact ⟨value, hash, hhash, .inr ⟨hallowed, hcookie⟩,
          (principal_issued hstore hhash).2 after h⟩

/-- Whoever passes `authenticate` is entitled to. -/
theorem entitled_of_authenticate {trace : Audit.Trace} {now dbNow : ℤ} {store : Store}
    (hstore : (credentials env.provider env.sessionTtl).run .empty writes = some store)
    (h : (authenticate env trace call now dbNow store.db).stage .authenticated = .authenticated) :
    Entitled env writes now dbNow call (authenticate env trace call now dbNow store.db).caller := by
  unfold authenticate at h ⊢
  by_cases hpath : isPublic call.path = true
  · rw [if_pos hpath]
    exact .unguarded hpath
  · rw [if_neg hpath] at h ⊢
    rw [Bool.not_eq_true] at hpath
    by_cases hauth : authDisabled env.auth = true
    · rw [if_pos hauth] at h ⊢
      by_cases hclient : isLoopbackClient call.client = true
      · rw [if_pos hclient]
        exact .loopback hpath hauth hclient
      · rw [if_neg hclient] at h
        cases h
    · rw [if_neg hauth] at h ⊢
      rw [Bool.not_eq_true] at hauth
      split at h
      · next principal after haccepted =>
        obtain ⟨raw, hash, hhash, hpresented, hauthorised, hissued⟩ :=
          issued_of_requireAuth hstore haccepted
        exact .credential principal raw hash store after hpath hauth hpresented hhash hstore
          haccepted hauthorised hissued
      · cases h
      · cases h

/-- What the flights and the handlers have to show for themselves after some steps. -/
structure Guarded (env : Env) (steps : List Step) (s : App) : Prop where
  flights : ∀ flight ∈ s.flights, flight.stage = .authenticated →
    Arrived env steps flight.trace.id flight.call flight.caller
  served : ∀ entry ∈ s.served, Arrived env steps entry.trace.id entry.call entry.caller

theorem Guarded.more (a : Step) (h : Guarded env steps s) : Guarded env (steps ++ [a]) s where
  flights flight hflight hstage := (h.flights flight hflight hstage).more a
  served entry hentry := (h.served entry hentry).more a

/-- A flight whose stage moves on from authentication takes nothing away from the others. -/
theorem Guarded.moved {id : Str} {flight : Flight} {stage : Stage} (h : Guarded env steps s)
    (hstage : stage ≠ .authenticated) :
    ∀ other ∈ { flight with stage := stage } :: s.others id, other.stage = .authenticated →
      Arrived env steps other.trace.id other.call other.caller := by
  intro other hother hauthenticated
  cases List.mem_cons.mp hother with
  | inl hself =>
    subst hself
    exact absurd hauthenticated hstage
  | inr hmem => exact h.flights other (App.mem_of_mem_others hmem).1 hauthenticated

theorem guarded_run (hrun : (application env).run .initial steps = some s) :
    Guarded env steps s := by
  apply Machine.invariant_past (M := application env) (I := Guarded env) ?_ ?_ hrun
  · exact ⟨fun _ h ↦ absurd h List.not_mem_nil, fun _ h ↦ absurd h List.not_mem_nil⟩
  · intro past a t u hpast hguarded hstep
    have hmore := hguarded.more a
    cases a with
    | write w =>
      obtain ⟨store, -, rfl⟩ := step_write hstep
      exact ⟨hmore.flights, hmore.served⟩
    | arrive id call now dbNow =>
      obtain ⟨-, rfl⟩ := step_arrive hstep
      refine ⟨fun flight hflight hstage ↦ ?_, hmore.served⟩
      cases List.mem_cons.mp hflight with
      | inl hnew =>
        subst hnew
        have hentitled := entitled_of_authenticate (projects_credentials.run hpast) hstage
        exact ⟨past, now, dbNow, [], rfl, hentitled⟩
      | inr hold => exact hmore.flights flight hold hstage
    | enter id now =>
      obtain ⟨-, flight, hflight, rfl⟩ := step_enter hstep
      obtain ⟨hmem, -, hstage⟩ := App.flight_eq_some hflight
      refine ⟨hmore.moved (Verdict.stage_entered _), fun entry hentry ↦ ?_⟩
      cases List.mem_append.mp hentry with
      | inl hold => exact hmore.served entry hold
      | inr hnew =>
        rw [List.mem_ite_nil_right, List.mem_singleton] at hnew
        rw [hnew.2]
        exact hmore.flights flight hmem (eq_of_beq hstage)
    | record id row accepted =>
      obtain ⟨flight, -, -, rfl⟩ := step_record hstep
      exact ⟨hmore.flights, hmore.served⟩
    | respond id status =>
      obtain ⟨flight, -, rfl⟩ := step_respond hstep
      exact ⟨hmore.moved fun h ↦ Stage.noConfusion h, hmore.served⟩
    | leave id pool durationMs =>
      obtain ⟨flight, status, -, -, -, rfl⟩ := step_leave hstep
      refine ⟨fun other hother hstage ↦ ?_, hmore.served⟩
      exact hmore.flights other (App.mem_of_mem_others hother).1 hstage

/-- The handler of a request is entered only for who was entitled to it when the request came in. -/
theorem served_entitled (hrun : (application env).run .initial steps = some s) :
    ∀ entry ∈ s.served, Arrived env steps entry.trace.id entry.call entry.caller :=
  (guarded_run hrun).served

def guardedEnv : Env := ⟨OAuth.sampleProvider, 3600, none, str "http://localhost:8200"⟩

/-- A request for the jobs, with a bearer token. -/
def jobsCall (token : String) : Call :=
  ⟨str "GET", str "/rest/v1/jobs", some (str ("Bearer " ++ token)), none, some (str "10.0.0.7"), none⟩

/-- An account with a limit of one, and a request of it and of its agent at the same time. -/
def twoCalls : List Step :=
  founding.map .write ++ [.write (.rateLimit (str "scimac") (some 1)),
    .arrive (str "t0") (jobsCall "a0") 5 5, .arrive (str "t1") (jobsCall "r0") 5 5,
    .enter (str "t0") 7, .enter (str "t1") 8]

theorem served_entitled_twoCalls : ∃ s, (application guardedEnv).run .initial twoCalls = some s ∧
    s.served.length = 1 ∧ ∀ entry ∈ s.served,
      Arrived guardedEnv twoCalls entry.trace.id entry.call entry.caller := by
  have hlength : ((application guardedEnv).run .initial twoCalls).map (fun s ↦ s.served.length) =
      some 1 := by decide +kernel
  obtain ⟨s, hs, hone⟩ := Option.map_eq_some_iff.mp hlength
  exact ⟨s, hs, hone, served_entitled hs⟩

/-! ## The window of an account -/

/-- The account of a caller and its limit, where it has one. -/
def Caller.charge (caller : Caller) : Option (ℤ × ℤ) :=
  caller.principal.rateLimitPerMin.map fun limit ↦ (caller.principal.accountId, limit)

/-- The request is charged to the account, whatever the limit. -/
def Served.chargedTo (account : ℤ) (entry : Served) : Bool :=
  (entry.caller.bind Caller.charge).any fun charge ↦ charge.1 == account

/-- The request is charged to the account under a limit of at most `bound`. -/
def Served.under (account bound : ℤ) (entry : Served) : Bool :=
  (entry.caller.bind Caller.charge).any fun charge ↦
    charge.1 == account && decide (charge.2 ≤ bound)

/-- The moments at which such requests have passed. -/
def moments (p : Served → Bool) (served : List Served) : List ℚ :=
  (served.filter p).map Served.moment

theorem moments_append (p : Served → Bool) (served more : List Served) :
    moments p (served ++ more) = moments p served ++ moments p more := by
  rw [moments, List.filter_append, List.map_append, moments, moments]

theorem moments_singleton (p : Served → Bool) (entry : Served) :
    moments p [entry] = if p entry then [entry.moment] else [] := by
  rw [moments, List.filter_singleton]
  cases p entry <;> rfl

theorem chargedTo_of_under {account bound : ℤ} {entry : Served}
    (h : entry.under account bound = true) : entry.chargedTo account = true := by
  unfold Served.under at h
  unfold Served.chargedTo
  rw [Option.any_eq_true] at h ⊢
  obtain ⟨charge, hcharge, hunder⟩ := h
  exact ⟨charge, hcharge, (Bool.and_eq_true _ _ ▸ hunder).1⟩

section Check

variable {trace : Audit.Trace} {now later : ℚ} {hits : Ratelimit.Hits}

theorem rateLimit_fst (caller : Caller) : (rateLimit trace (some caller) now hits).1 =
    (Ratelimit.check .doubles caller.principal.accountId caller.principal.rateLimitPerMin now hits).1 := by
  unfold rateLimit
  dsimp only
  split
  · next hcheck => rw [hcheck]
  · next hcheck =>
    rw [hcheck]
    split <;> rfl

/-- A request goes on to its handler when its check has admitted it. -/
theorem rateLimit_entered (caller : Caller) :
    (rateLimit trace (some caller) now hits).2.stage .entered = .entered ↔
      Ratelimit.admits (Ratelimit.check .doubles caller.principal.accountId
        caller.principal.rateLimitPerMin now hits).2 = true := by
  unfold rateLimit
  dsimp only
  split
  · next hcheck =>
    rw [hcheck]
    exact iff_of_false (fun h ↦ Stage.noConfusion h) Bool.false_ne_true
  · next hits' wait hcheck =>
    rw [hcheck]
    by_cases hwait : wait = 0
    · rw [if_pos hwait, hwait]
      exact iff_of_true rfl rfl
    · rw [if_neg hwait]
      refine iff_of_false (fun h ↦ Stage.noConfusion h) fun h ↦ hwait (eq_of_beq h)

/-- A check admits what is not limited, and what its account has room for. -/
theorem admits_check {account : ℤ} {limit : Option ℤ} :
    Ratelimit.admits (Ratelimit.check .doubles account limit now hits).2 = true ↔
      ∀ n, limit = some n →
        ((Ratelimit.fresh .doubles now (Ratelimit.timesOf hits account)).length : ℤ) < n := by
  rw [Ratelimit.check, Ratelimit.checkWith_snd]
  cases limit with
  | none => exact iff_of_true rfl fun n h ↦ absurd h.symm (Option.some_ne_none n)
  | some limit =>
    rw [Ratelimit.admits_answer, Ratelimit.records, Option.any_some, decide_eq_true_iff]
    constructor
    · intro h n hn
      exact Option.some.inj hn ▸ h
    · intro h
      exact h limit rfl

/-- A request passes unless its account has used up the limit. -/
theorem rateLimit_passes : (rateLimit trace caller now hits).2.stage .entered = .entered ↔
    ∀ account limit, caller.bind Caller.charge = some (account, limit) →
      ((Ratelimit.fresh .doubles now (Ratelimit.timesOf hits account)).length : ℤ) < limit := by
  cases caller with
  | none => exact iff_of_true rfl fun account limit h ↦ absurd h.symm (Option.some_ne_none _)
  | some caller =>
    rw [rateLimit_entered, admits_check, Option.bind_some, Caller.charge]
    constructor
    · intro h account limit hcharge
      obtain ⟨n, hn, hpair⟩ := Option.map_eq_some_iff.mp hcharge
      obtain ⟨rfl, rfl⟩ := Prod.mk.inj hpair
      exact h n hn
    · intro h n hn
      exact h caller.principal.accountId n (by rw [hn, Option.map_some])

/-- What passes is recorded for the account that it is charged to, and nothing else is. -/
theorem fresh_rateLimit (h : now ≤ later) (account : ℤ) :
    Ratelimit.fresh .doubles later (Ratelimit.timesOf (rateLimit trace caller now hits).1 account) =
      Ratelimit.fresh .doubles later (Ratelimit.timesOf hits account) ++
        if (rateLimit trace caller now hits).2.stage .entered = .entered ∧
            (caller.bind Caller.charge).any (fun charge ↦ charge.1 == account) = true then
          Ratelimit.fresh .doubles later [now] else [] := by
  cases caller with
  | none => exact (List.append_nil _).symm
  | some caller =>
    rw [rateLimit_fst, Ratelimit.check, Ratelimit.fresh_checkWith Ratelimit.harmless_evict h]
    congr 1
    refine if_congr ?_ rfl rfl
    rw [rateLimit_entered, admits_check, Option.bind_some, Caller.charge]
    cases caller.principal.rateLimitPerMin with
    | none => exact iff_of_false (fun h ↦ Bool.false_ne_true h.2) (fun h ↦ Bool.false_ne_true h.2)
    | some limit =>
      rw [Option.map_some, Option.any_some, Ratelimit.records, Option.any_some, decide_eq_true_iff,
        beq_iff_eq]
      constructor
      · rintro ⟨rfl, hroom⟩
        exact ⟨fun n hn ↦ Option.some.inj hn ▸ hroom, rfl⟩
      · rintro ⟨hroom, rfl⟩
        exact ⟨rfl, hroom limit rfl⟩

end Check

/-- The table of the rate limit holds what has passed: the recent moments of every account, and
nothing is later than the clock. -/
structure Metered (s : App) : Prop where
  recent : ∀ account later, s.clock ≤ later →
    Ratelimit.fresh .doubles later (Ratelimit.timesOf s.hits account) =
      Ratelimit.fresh .doubles later (moments (Served.chargedTo account) s.served)
  past : ∀ entry ∈ s.served, entry.moment ≤ s.clock
  bounded : ∀ account bound start, ((moments (Served.under account bound) s.served).countP
    fun t ↦ decide (start ≤ t ∧ t < start + Ratelimit.Clock.doubles.width)) ≤ bound.toNat

/-- A limit leaves room for one more request in every window of the requests under it. -/
theorem Metered.room {account bound limit : ℤ} {now : ℚ} (h : Metered s) (hclock : s.clock ≤ now)
    (hle : limit ≤ bound)
    (hroom : ((Ratelimit.fresh .doubles now (Ratelimit.timesOf s.hits account)).length : ℤ) < limit) :
    (Foundation.recent id Ratelimit.Clock.doubles.width now
      (moments (Served.under account bound) s.served)).length < bound.toNat := by
  rw [h.recent account now hclock] at hroom
  have hsub : (moments (Served.under account bound) s.served).Sublist
      (moments (Served.chargedTo account) s.served) :=
    (List.monotone_filter_right s.served fun entry ↦ chargedTo_of_under).map Served.moment
  have hlength : (Ratelimit.fresh .doubles now (moments (Served.under account bound) s.served)).length ≤
      (Ratelimit.fresh .doubles now (moments (Served.chargedTo account) s.served)).length :=
    (hsub.filter _).length_le
  rw [Ratelimit.fresh_eq_recent] at hroom
  rw [Ratelimit.fresh_eq_recent, Ratelimit.fresh_eq_recent] at hlength
  omega

theorem metered_step {a : Step} (h : Metered s) (hstep : (application env).step s a = some t) :
    Metered t := by
  cases a with
  | write w =>
    obtain ⟨store, -, rfl⟩ := step_write hstep
    exact ⟨h.recent, h.past, h.bounded⟩
  | arrive id call now dbNow =>
    obtain ⟨-, rfl⟩ := step_arrive hstep
    exact ⟨h.recent, h.past, h.bounded⟩
  | record id row accepted =>
    obtain ⟨flight, -, -, rfl⟩ := step_record hstep
    exact ⟨h.recent, h.past, h.bounded⟩
  | respond id status =>
    obtain ⟨flight, -, rfl⟩ := step_respond hstep
    exact ⟨h.recent, h.past, h.bounded⟩
  | leave id pool durationMs =>
    obtain ⟨flight, status, -, -, -, rfl⟩ := step_leave hstep
    exact ⟨h.recent, h.past, h.bounded⟩
  | enter id now =>
    obtain ⟨hclock, flight, -, rfl⟩ := step_enter hstep
    by_cases hpasses : (rateLimit flight.trace flight.caller now s.hits).2.stage .entered = .entered
    · simp only [if_pos hpasses]
      refine ⟨fun account later hlater ↦ ?_, fun entry hentry ↦ ?_, fun account bound start ↦ ?_⟩
      · rw [fresh_rateLimit hlater, moments_append, moments_singleton, Ratelimit.fresh_append,
          h.recent account later (hclock.trans hlater)]
        congr 1
        rw [Served.chargedTo, Flight.served]
        by_cases hcharged : (flight.caller.bind Caller.charge).any
            (fun charge ↦ charge.1 == account) = true
        · rw [if_pos ⟨hpasses, hcharged⟩, if_pos hcharged]
        · rw [if_neg fun hand ↦ hcharged hand.2, if_neg hcharged]
          rfl
      · cases List.mem_append.mp hentry with
        | inl hold => exact (h.past entry hold).trans hclock
        | inr hnew => exact (List.mem_singleton.mp hnew ▸ le_rfl : entry.moment ≤ now)
      · rw [moments_append, moments_singleton]
        by_cases hunder : (flight.served now).under account bound = true
        · rw [if_pos hunder]
          refine countP_window_concat (h.bounded account bound start) ?_
          obtain ⟨charge, hcharge, hthis⟩ := (Option.any_eq_true _ _).mp hunder
          rw [Bool.and_eq_true, beq_iff_eq, decide_eq_true_iff] at hthis
          refine h.room hclock hthis.2 ?_
          rw [← hthis.1]
          exact rateLimit_passes.mp hpasses charge.1 charge.2 hcharge
        · rw [if_neg hunder, List.append_nil]
          exact h.bounded account bound start
    · simp only [if_neg hpasses, List.append_nil]
      refine ⟨fun account later hlater ↦ ?_, fun entry hentry ↦ ?_, h.bounded⟩
      · rw [fresh_rateLimit hlater, if_neg fun hand ↦ hpasses hand.1, List.append_nil,
          h.recent account later (hclock.trans hlater)]
      · exact (h.past entry hentry).trans hclock

theorem metered_run (hrun : (application env).run .initial steps = some s) : Metered s := by
  refine Machine.invariant _ (fun _ _ _ h ↦ metered_step h) hrun ⟨?_, ?_, ?_⟩
  · exact fun _ _ _ ↦ rfl
  · exact fun _ h ↦ absurd h List.not_mem_nil
  · exact fun _ _ _ ↦ Nat.zero_le _

/-- The window of an account is exact, with the width that float differences have: it holds no more
requests under a limit than this allows, whatever credentials they come with, and a request is
turned away only where the account has used up its limit within the window before. -/
theorem rate_exact (hrun : (application env).run .initial steps = some s) (account : ℤ) :
    (∀ bound start, ((moments (Served.under account bound) s.served).countP
      fun t ↦ decide (start ≤ t ∧ t < start + Ratelimit.Clock.doubles.width)) ≤ bound.toNat) ∧
    ∀ trace caller limit now, s.clock ≤ now → Caller.charge caller = some (account, limit) →
      ((rateLimit trace (some caller) now s.hits).2.stage .entered = .entered ↔
        ((moments (Served.chargedTo account) s.served).countP fun t ↦
          decide (now - Ratelimit.Clock.doubles.width < t)) < limit) := by
  have h := metered_run hrun
  refine ⟨h.bounded account, fun trace caller limit now hclock hcharge ↦ ?_⟩
  rw [rateLimit_passes, Option.bind_some, hcharge]
  have hcount : (Ratelimit.fresh .doubles now (Ratelimit.timesOf s.hits account)).length =
      (moments (Served.chargedTo account) s.served).countP fun t ↦
        decide (now - Ratelimit.Clock.doubles.width < t) := by
    rw [h.recent account now hclock, Ratelimit.fresh_eq_recent, Foundation.recent,
      ← List.countP_eq_length_filter]
    apply List.countP_congr
    intro t _
    rw [decide_eq_true_iff, decide_eq_true_iff]
    exact sub_lt_comm
  rw [← hcount]
  constructor
  · exact fun hall ↦ hall account limit rfl
  · intro hroom other n hpair
    obtain ⟨rfl, rfl⟩ := Prod.mk.inj (Option.some.inj hpair)
    exact hroom

theorem rate_exact_twoCalls : ∃ s, (application guardedEnv).run .initial twoCalls = some s ∧
    (∀ bound start, ((moments (Served.under 1 bound) s.served).countP
      fun t ↦ decide (start ≤ t ∧ t < start + Ratelimit.Clock.doubles.width)) ≤ bound.toNat) ∧
    ∀ trace caller limit now, s.clock ≤ now → Caller.charge caller = some (1, limit) →
      ((rateLimit trace (some caller) now s.hits).2.stage .entered = .entered ↔
        ((moments (Served.chargedTo 1) s.served).countP fun t ↦
          decide (now - Ratelimit.Clock.doubles.width < t)) < limit) := by
  obtain ⟨s, hs⟩ : ∃ s, (application guardedEnv).run .initial twoCalls = some s :=
    Option.isSome_iff_exists.mp (by decide +kernel)
  exact ⟨s, hs, rate_exact hs 1⟩

end DatumSync.Api
