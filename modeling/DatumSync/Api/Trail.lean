import DatumSync.Api.Stack

/-!
# What the audit trail says of a run

The trail of a run has the rows that handlers write and those of the middleware, less what was
counted as lost.  The rows of the middleware are those of finished requests, and no request has two.
So where nothing was lost, every request outside the endpoint whose handler may have changed
something is in the trail, with its caller, exactly once but for what its handler writes itself.
-/

namespace DatumSync.Api

open Auth Foundation Python

/-- The row that `_audit_row` tries to write. -/
def attempted (trace : Audit.Trace) (request : Request) (status : ℕ) : Option Audit.Row :=
  if startsWith request.path auditSelfLogging then none
  else match request.principal with
    | none =>
      if status = 401 then some {
        traceId := trace.id, clientTraceId := trace.clientId, actorKind := str "anonymous"
        actorId := none, actorName := [], entry := refusedEntry request status }
      else none
    | some principal =>
      if auditReadMethods.contains request.method then none
      else some (Audit.rowOf trace principal (requestEntry request status))

def Finished.row (done : Finished) : Option Audit.Row :=
  attempted done.trace done.request done.status

/-- `_audit_row` writes the row, or counts it. -/
theorem auditRow_eq (pool : Pool) (trace : Audit.Trace) (request : Request) (status : ℕ)
    (log : Audit.Log) : auditRow pool trace request status log =
      match attempted trace request status with
      | none => log
      | some row =>
        if pool.acquire then Audit.insertRow pool.accepts row log else Audit.drop log := by
  unfold auditRow attempted
  split
  · rfl
  · cases request.principal with
    | none =>
      dsimp only
      split <;> rfl
    | some principal =>
      dsimp only
      split <;> rfl

/-- What becomes of the row, whatever the log holds already. -/
theorem auditRow_accounts (pool : Pool) (trace : Audit.Trace) (request : Request) (status : ℕ) :
    ∃ kept, ∃ lost : ℕ,
      (∀ log, (auditRow pool trace request status log).rows = log.rows ++ kept) ∧
      (∀ log, (auditRow pool trace request status log).dropped = log.dropped + lost) ∧
      kept.Sublist (attempted trace request status).toList ∧
      kept.length + lost = (attempted trace request status).toList.length := by
  simp only [auditRow_eq]
  cases attempted trace request status with
  | none => exact ⟨[], 0, fun log ↦ (List.append_nil _).symm, fun log ↦ rfl, List.nil_sublist _, rfl⟩
  | some row =>
    dsimp only
    by_cases hkept : pool.acquire = true ∧ pool.accepts row = true
    · refine ⟨[row], 0, fun log ↦ ?_, fun log ↦ ?_, List.Sublist.refl _, rfl⟩
      · rw [if_pos hkept.1, Audit.insertRow, if_pos hkept.2]
      · rw [if_pos hkept.1, Audit.insertRow, if_pos hkept.2, Nat.add_zero]
    · have hdrop : ∀ log, (if pool.acquire then Audit.insertRow pool.accepts row log
          else Audit.drop log) = Audit.drop log := by
        intro log
        split
        · next hacquire => rw [Audit.insertRow, if_neg fun haccepts ↦ hkept ⟨hacquire, haccepts⟩]
        · rfl
      simp only [hdrop]
      exact ⟨[], 1, fun log ↦ (List.append_nil _).symm, fun log ↦ rfl, List.nil_sublist _, rfl⟩

theorem attempted_traceId {trace : Audit.Trace} {request : Request} {status : ℕ} {row : Audit.Row}
    (h : attempted trace request status = some row) : row.traceId = trace.id := by
  unfold attempted at h
  split at h
  · cases h
  · split at h
    · split at h
      · exact (Option.some.inj h) ▸ rfl
      · cases h
    · split at h
      · cases h
      · exact (Option.some.inj h) ▸ Audit.rowOf_traceId ..

def Served.flight (entry : Served) (stage : Stage) : Flight :=
  ⟨entry.trace, entry.call, entry.caller, stage⟩

def Served.finished (entry : Served) (durationMs : ℤ) (status : ℕ) : Finished :=
  ⟨entry.trace, (entry.flight (.answered status)).request durationMs, status⟩

/-- What is true of the requests of a run. -/
structure Threaded (s : App) : Prop where
  flights : (s.flights.map fun flight ↦ flight.trace.id).Nodup
  finished : (s.finished.map fun done ↦ done.trace.id).Nodup
  apart : ∀ flight ∈ s.flights, ∀ done ∈ s.finished, done.trace.id ≠ flight.trace.id
  once : (s.served.map fun entry ↦ entry.trace.id).Nodup
  served : ∀ entry ∈ s.served,
    (∃ stage, stage ≠ .authenticated ∧ entry.flight stage ∈ s.flights) ∨
      ∃ durationMs status, entry.finished durationMs status ∈ s.finished
  entered : ∀ flight ∈ s.flights, flight.stage = .entered →
    flight.trace.id ∈ s.served.map fun entry ↦ entry.trace.id

/-- And of its trail. -/
structure Booked (s : App) : Prop where
  rows : s.own.rows.Sublist (s.finished.filterMap Finished.row)
  counted : s.own.rows.length + s.own.dropped = (s.finished.filterMap Finished.row).length
  parts : s.log.rows.Perm (s.handled.rows ++ s.own.rows)
  lost : s.log.dropped = s.handled.dropped + s.own.dropped
  handlers : ∀ row ∈ s.handled.rows, row.traceId ∈ s.served.map fun entry ↦ entry.trace.id

variable {env : Env} {s t : App} {id : Str} {steps : List Step}

section Moved

variable {flight : Flight} {stage : Stage}

theorem Threaded.moved_flights (h : Threaded s) (hid : flight.trace.id = id) :
    (({ flight with stage := stage } :: s.others id).map fun flight ↦ flight.trace.id).Nodup := by
  rw [List.map_cons, List.nodup_cons]
  constructor
  · intro hin
    obtain ⟨other, hother, hsame⟩ := List.mem_map.mp hin
    exact (App.mem_of_mem_others hother).2 (hsame.trans hid)
  · exact h.flights.sublist (List.filter_sublist.map _)

theorem Threaded.moved_apart (h : Threaded s) (hmem : flight ∈ s.flights) :
    ∀ other ∈ { flight with stage := stage } :: s.others id,
      ∀ done ∈ s.finished, done.trace.id ≠ other.trace.id := by
  intro other hother
  cases List.mem_cons.mp hother with
  | inl hself => exact hself ▸ h.apart flight hmem
  | inr hold => exact h.apart other (App.mem_of_mem_others hold).1

variable (h : Threaded s) (hmem : flight ∈ s.flights) (hid : flight.trace.id = id)
include h hmem hid

/-- A request that was in its handler, or past it, still is. -/
theorem Threaded.moved_served (hstage : stage ≠ .authenticated) : ∀ entry ∈ s.served,
    (∃ stage', stage' ≠ .authenticated ∧
      entry.flight stage' ∈ { flight with stage := stage } :: s.others id) ∨
        ∃ durationMs status, entry.finished durationMs status ∈ s.finished := by
  intro entry hentry
  cases h.served entry hentry with
  | inr hdone => exact .inr hdone
  | inl hflight =>
    obtain ⟨stage', hstage', hin⟩ := hflight
    by_cases hsame : entry.trace.id = id
    · have hself : entry.flight stage' = flight :=
        eq_of_unique h.flights hmem hin (hsame.trans hid.symm)
      exact .inl ⟨stage, hstage, List.mem_cons.mpr (.inl (hself ▸ rfl))⟩
    · have hother : entry.flight stage' ∈ s.others id :=
        List.mem_filter.mpr ⟨hin, bne_iff_ne.mpr hsame⟩
      exact .inl ⟨stage', hstage', List.mem_cons_of_mem _ hother⟩

/-- A request that waits for its check has not been in its handler. -/
theorem Threaded.not_served (hwaits : flight.stage = .authenticated) :
    id ∉ s.served.map fun entry ↦ entry.trace.id := by
  intro hin
  obtain ⟨entry, hentry, hsame⟩ := List.mem_map.mp hin
  cases h.served entry hentry with
  | inl hflight =>
    obtain ⟨stage, hstage, hin⟩ := hflight
    have hself : entry.flight stage = flight :=
      eq_of_unique h.flights hmem hin (hsame.trans hid.symm)
    exact hstage (by rw [← hwaits, ← hself]; rfl)
  | inr hdone =>
    obtain ⟨durationMs, status, hdone⟩ := hdone
    exact h.apart flight hmem _ hdone (hsame.trans hid.symm)

end Moved

theorem isFresh_iff : s.isFresh id = true ↔
    (∀ flight ∈ s.flights, flight.trace.id ≠ id) ∧ ∀ done ∈ s.finished, done.trace.id ≠ id := by
  unfold App.isFresh
  simp only [Bool.and_eq_true, List.all_eq_true, bne_iff_ne]

/-! ## One lemma for each step -/

theorem Threaded.arrive {call : Call} {now dbNow : ℤ} (h : Threaded s)
    (hstep : (application env).step s (.arrive id call now dbNow) = some t) : Threaded t := by
  obtain ⟨hfresh, rfl⟩ := step_arrive hstep
  obtain ⟨hflights, hfinished⟩ := isFresh_iff.mp hfresh
  refine ⟨?_, h.finished, ?_, h.once, fun entry hentry ↦ ?_, ?_⟩
  · rw [List.map_cons, List.nodup_cons]
    refine ⟨fun hin ↦ ?_, h.flights⟩
    obtain ⟨other, hother, hsame⟩ := List.mem_map.mp hin
    exact hflights other hother hsame
  · intro flight hflight
    cases List.mem_cons.mp hflight with
    | inl hnew =>
      subst hnew
      exact hfinished
    | inr hold => exact h.apart flight hold
  · cases h.served entry hentry with
    | inl hflight =>
      obtain ⟨stage, hstage, hin⟩ := hflight
      exact .inl ⟨stage, hstage, List.mem_cons_of_mem _ hin⟩
    | inr hdone => exact .inr hdone
  · intro flight hflight hstage
    cases List.mem_cons.mp hflight with
    | inl hnew =>
      subst hnew
      exact absurd hstage (Verdict.stage_authenticated _)
    | inr hold => exact h.entered flight hold hstage

theorem Threaded.enter {now : ℚ} (h : Threaded s)
    (hstep : (application env).step s (.enter id now) = some t) : Threaded t := by
  obtain ⟨-, flight, hflight, rfl⟩ := step_enter hstep
  obtain ⟨hmem, hid, hstage⟩ := App.flight_eq_some hflight
  have hnext := Verdict.stage_entered (rateLimit flight.trace flight.caller now s.hits).2
  refine ⟨h.moved_flights hid, h.finished, h.moved_apart hmem, ?_, ?_, ?_⟩
  · dsimp only
    split
    · rw [List.map_append, List.map_singleton]
      refine List.nodup_append.mpr ⟨h.once, List.nodup_singleton _, fun x hx y hy ↦ ?_⟩
      rw [List.mem_singleton.mp hy]
      exact fun hxy ↦ h.not_served hmem hid (eq_of_beq hstage) (hid ▸ hxy ▸ hx)
    · rw [List.append_nil]
      exact h.once
  · intro entry hentry
    cases List.mem_append.mp hentry with
    | inl hold => exact h.moved_served hmem hid hnext entry hold
    | inr hnew =>
      obtain ⟨-, hself⟩ := List.mem_ite_nil_right.mp hnew
      rw [List.mem_singleton.mp hself]
      exact .inl ⟨_, hnext, List.mem_cons_self⟩
  · intro other hother hentered
    rw [List.map_append, List.mem_append]
    cases List.mem_cons.mp hother with
    | inl hnew =>
      subst hnew
      right
      rw [if_pos hentered]
      exact List.mem_singleton_self _
    | inr hold => exact .inl (h.entered other (App.mem_of_mem_others hold).1 hentered)

theorem Threaded.respond {status : ℕ} (h : Threaded s)
    (hstep : (application env).step s (.respond id status) = some t) : Threaded t := by
  obtain ⟨flight, hflight, rfl⟩ := step_respond hstep
  obtain ⟨hmem, hid, -⟩ := App.flight_eq_some hflight
  refine ⟨h.moved_flights hid, h.finished, h.moved_apart hmem, h.once,
    h.moved_served hmem hid fun h ↦ Stage.noConfusion h, fun other hother hentered ↦ ?_⟩
  cases List.mem_cons.mp hother with
  | inl hnew =>
    subst hnew
    cases hentered
  | inr hold => exact h.entered other (App.mem_of_mem_others hold).1 hentered

theorem Threaded.leave {pool : Pool} {durationMs : ℤ} (h : Threaded s)
    (hstep : (application env).step s (.leave id pool durationMs) = some t) : Threaded t := by
  obtain ⟨flight, status, hmem, hid, hstage, rfl⟩ := step_leave hstep
  refine ⟨h.flights.sublist (List.filter_sublist.map _), ?_, ?_, h.once, ?_,
    fun other hother ↦ h.entered other (App.mem_of_mem_others hother).1⟩
  · rw [List.map_append, List.map_singleton]
    refine List.nodup_append.mpr ⟨h.finished, List.nodup_singleton _, fun x hx y hy ↦ ?_⟩
    obtain ⟨done, hdone, rfl⟩ := List.mem_map.mp hx
    rw [List.mem_singleton.mp hy]
    exact h.apart flight hmem done hdone
  · intro other hother done hdone
    obtain ⟨hold, hne⟩ := App.mem_of_mem_others hother
    cases List.mem_append.mp hdone with
    | inl hdone => exact h.apart other hold done hdone
    | inr hnew =>
      rw [List.mem_singleton.mp hnew]
      exact fun hsame ↦ hne (hsame.symm.trans hid)
  · intro entry hentry
    cases h.served entry hentry with
    | inr hdone =>
      obtain ⟨durationMs', status', hdone⟩ := hdone
      exact .inr ⟨durationMs', status', List.mem_append_left _ hdone⟩
    | inl hflight =>
      obtain ⟨stage, hne, hin⟩ := hflight
      by_cases hsame : entry.trace.id = id
      · have hself : entry.flight stage = flight :=
          eq_of_unique h.flights hmem hin (hsame.trans hid.symm)
        have hdone : entry.finished durationMs status =
            ⟨flight.trace, flight.request durationMs, status⟩ := by
          rw [← hself]
          rfl
        exact .inr ⟨durationMs, status,
          List.mem_append_right _ (List.mem_singleton.mpr hdone)⟩
      · have hother : entry.flight stage ∈ s.others id :=
          List.mem_filter.mpr ⟨hin, bne_iff_ne.mpr hsame⟩
        exact .inl ⟨stage, hne, hother⟩

theorem threaded_step {a : Step} (h : Threaded s) (hstep : (application env).step s a = some t) :
    Threaded t := by
  cases a with
  | write w =>
    obtain ⟨store, -, rfl⟩ := step_write hstep
    exact ⟨h.flights, h.finished, h.apart, h.once, h.served, h.entered⟩
  | record id row accepted =>
    obtain ⟨flight, -, -, rfl⟩ := step_record hstep
    exact ⟨h.flights, h.finished, h.apart, h.once, h.served, h.entered⟩
  | arrive id call now dbNow => exact h.arrive hstep
  | enter id now => exact h.enter hstep
  | respond id status => exact h.respond hstep
  | leave id pool durationMs => exact h.leave hstep

/-- A handler writes under the trace of a request whose handler has been entered. -/
theorem Booked.record {row : Audit.Row} {accepted : Bool} (hthreaded : Threaded s) (h : Booked s)
    (hstep : (application env).step s (.record id row accepted) = some t) : Booked t := by
  obtain ⟨flight, hflight, htrace, rfl⟩ := step_record hstep
  obtain ⟨hmem, -, hstage⟩ := App.flight_eq_some hflight
  have hserved := htrace ▸ hthreaded.entered flight hmem (eq_of_beq hstage)
  cases accepted with
  | true =>
    refine ⟨h.rows, h.counted, ?_, h.lost, fun other hother ↦ ?_⟩
    · change (s.log.rows ++ [row]).Perm (s.handled.rows ++ [row] ++ s.own.rows)
      refine (h.parts.append_right [row]).trans ?_
      rw [List.append_assoc, List.append_assoc]
      exact List.perm_append_comm.append_left _
    · cases List.mem_append.mp hother with
      | inl hold => exact h.handlers other hold
      | inr hnew => exact List.mem_singleton.mp hnew ▸ hserved
  | false =>
    refine ⟨h.rows, h.counted, h.parts, ?_, h.handlers⟩
    change s.log.dropped + 1 = s.handled.dropped + 1 + s.own.dropped
    rw [h.lost]
    omega

theorem Booked.leave {pool : Pool} {durationMs : ℤ} (h : Booked s)
    (hstep : (application env).step s (.leave id pool durationMs) = some t) : Booked t := by
  obtain ⟨flight, status, -, -, -, rfl⟩ := step_leave hstep
  obtain ⟨kept, lost, hrows, hdropped, hkept, hcounted⟩ := auditRow_accounts pool flight.trace
    (flight.request durationMs) status
  have hlast : List.filterMap Finished.row
      (s.finished ++ [⟨flight.trace, flight.request durationMs, status⟩]) =
        s.finished.filterMap Finished.row ++
          (attempted flight.trace (flight.request durationMs) status).toList := by
    rw [List.filterMap_append, List.filterMap_cons, List.filterMap_nil, Finished.row]
    cases attempted flight.trace (flight.request durationMs) status <;> rfl
  refine ⟨?_, ?_, ?_, ?_, h.handlers⟩
  · rw [hrows, hlast]
    exact h.rows.append hkept
  · rw [hlast, List.length_append, ← h.counted, hrows, List.length_append, hdropped]
    omega
  · rw [hrows, hrows, ← List.append_assoc]
    exact h.parts.append_right _
  · dsimp only
    rw [hdropped, hdropped, h.lost]
    omega

theorem booked_step {a : Step} (hthreaded : Threaded s) (h : Booked s)
    (hstep : (application env).step s a = some t) : Booked t := by
  cases a with
  | write w =>
    obtain ⟨store, -, rfl⟩ := step_write hstep
    exact ⟨h.rows, h.counted, h.parts, h.lost, h.handlers⟩
  | arrive id call now dbNow =>
    obtain ⟨-, rfl⟩ := step_arrive hstep
    exact ⟨h.rows, h.counted, h.parts, h.lost, h.handlers⟩
  | enter id now =>
    obtain ⟨-, flight, -, rfl⟩ := step_enter hstep
    refine ⟨h.rows, h.counted, h.parts, h.lost, fun row hrow ↦ ?_⟩
    rw [List.map_append]
    exact List.mem_append_left _ (h.handlers row hrow)
  | record id row accepted => exact h.record hthreaded hstep
  | respond id status =>
    obtain ⟨flight, -, rfl⟩ := step_respond hstep
    exact ⟨h.rows, h.counted, h.parts, h.lost, h.handlers⟩
  | leave id pool durationMs => exact h.leave hstep

theorem traced_run (hrun : (application env).run .initial steps = some s) :
    Threaded s ∧ Booked s := by
  apply Machine.invariant (I := fun s ↦ Threaded s ∧ Booked s) (application env)
    (fun _ _ _ h hstep ↦ ⟨threaded_step h.1 hstep, booked_step h.1 h.2 hstep⟩) hrun
  constructor
  · exact ⟨List.nodup_nil, List.nodup_nil, fun _ h ↦ absurd h List.not_mem_nil, List.nodup_nil,
      fun _ h ↦ absurd h List.not_mem_nil, fun _ h ↦ absurd h List.not_mem_nil⟩
  · exact ⟨List.Sublist.refl _, rfl, List.Perm.refl _, rfl, fun _ h ↦ absurd h List.not_mem_nil⟩

structure Trail (s : App) : Prop where
  /-- A handler is entered at most once for a request. -/
  once : (s.served.map fun entry ↦ entry.trace.id).Nodup
  /-- The trail is what handlers and the middleware have written, and the count what they lost. -/
  parts : s.log.rows.Perm (s.handled.rows ++ s.own.rows)
  lost : s.log.dropped = s.handled.dropped + s.own.dropped
  /-- A handler writes under the trace of its request. -/
  handlers : ∀ row ∈ s.handled.rows, row.traceId ∈ s.served.map fun entry ↦ entry.trace.id
  /-- Of the middleware a request has at most one row. -/
  unique : (s.own.rows.map Audit.Row.traceId).Nodup
  rows : s.own.rows.Sublist (s.finished.filterMap Finished.row)
  counted : s.own.rows.length + s.own.dropped = (s.finished.filterMap Finished.row).length
  /-- While nothing is lost, a handler that may have changed something has its row. -/
  complete : s.log.dropped = 0 → ∀ entry ∈ s.served, ∀ caller, entry.caller = some caller →
    entry.call.method ∉ auditReadMethods →
    startsWith entry.call.path auditSelfLogging = false →
    (∀ flight ∈ s.flights, flight.trace ≠ entry.trace) →
    ∃ durationMs status, s.own.rows.filter (fun row ↦ row.traceId == entry.trace.id) =
      [Audit.rowOf entry.trace caller.principal
        (requestEntry (entry.finished durationMs status).request status)]

/-- The rows of finished requests have the trace ids of these, in order. -/
theorem rows_traceIds (finished : List Finished) :
    ((finished.filterMap Finished.row).map Audit.Row.traceId).Sublist
      (finished.map fun done ↦ done.trace.id) := by
  induction finished with
  | nil => exact List.Sublist.refl _
  | cons done rest ih =>
    rw [List.filterMap_cons]
    cases hrow : done.row with
    | none => exact ih.cons _
    | some row =>
      rw [List.map_cons, List.map_cons, attempted_traceId hrow]
      exact ih.cons_cons _

/-- The trail of every run, whatever the requests and the database do. -/
theorem trail_run (hrun : (application env).run .initial steps = some s) : Trail s := by
  obtain ⟨hthreaded, h⟩ := traced_run hrun
  have hunique : (s.own.rows.map Audit.Row.traceId).Nodup :=
    hthreaded.finished.sublist ((h.rows.map _).trans (rows_traceIds s.finished))
  refine ⟨hthreaded.once, h.parts, h.lost, h.handlers, hunique, h.rows, h.counted, ?_⟩
  intro hdropped entry hentry caller hcaller hmethod hpath hgone
  have hall : s.own.rows = s.finished.filterMap Finished.row := by
    refine h.rows.eq_of_length ?_
    rw [← h.counted, (Nat.add_eq_zero_iff.mp (h.lost.symm.trans hdropped)).2, Nat.add_zero]
  cases hthreaded.served entry hentry with
  | inl hflight =>
    obtain ⟨stage, -, hin⟩ := hflight
    exact absurd rfl (hgone _ hin)
  | inr hdone =>
    obtain ⟨durationMs, status, hdone⟩ := hdone
    have hrow : (entry.finished durationMs status).row = some (Audit.rowOf entry.trace
        caller.principal (requestEntry (entry.finished durationMs status).request status)) := by
      have hread : ¬ auditReadMethods.contains entry.call.method = true := by simpa using hmethod
      have hprincipal : (entry.finished durationMs status).request.principal =
          some caller.principal := by
        change entry.caller.map Caller.principal = _
        rw [hcaller, Option.map_some]
      unfold Finished.row attempted
      rw [if_neg (by exact ne_true_of_eq_false hpath), hprincipal]
      exact if_neg hread
    refine ⟨durationMs, status, ?_⟩
    have hmem : Audit.rowOf entry.trace caller.principal
        (requestEntry (entry.finished durationMs status).request status) ∈ s.own.rows :=
      hall ▸ List.mem_filterMap.mpr ⟨_, hdone, hrow⟩
    rw [← filter_of_unique hunique hmem, attempted_traceId hrow]
    rfl

/-- An application without authentication. -/
def localEnv : Env := ⟨OAuth.sampleProvider, 3600, some (str "off"), str "http://localhost:8200"⟩

def loginRow (trace : Audit.Trace) (name : Str) : Audit.Row where
  traceId := trace.id
  clientTraceId := trace.clientId
  actorKind := str "anonymous"
  actorId := none
  actorName := name
  entry := {
    via := str "ui", verb := str "auth.login", targetKind := none, target := .null
    outcome := .error, errorCode := some 401
    detail := some [(str "reason", .text (str "invalid_credentials"))] }

/-- A schedule is created from the machine itself, and its row is lost; a sign-in fails, for which
its handler and the middleware have a row each. -/
def lostAndFailed : List Step :=
  [.arrive (str "t0") ⟨str "POST", str "/rest/v1/schedules", none, none, some (str "::ffff:127.0.0.2"),
      none⟩ 5 5,
    .enter (str "t0") 7,
    .arrive (str "t1") ⟨str "POST", str "/ui/login", none, none, none, none⟩ 5 5,
    .enter (str "t1") 7, .record (str "t1") (loginRow ⟨str "t1", none⟩ (str "ops")) true,
    .respond (str "t0") 201, .leave (str "t0") ⟨false, fun _ ↦ true⟩ 3,
    .respond (str "t1") 401, .leave (str "t1") ⟨true, fun _ ↦ true⟩ 3]

theorem trail_run_lostAndFailed : ∃ s,
    (application localEnv).run .initial lostAndFailed = some s ∧
    (s.log.rows.length, s.log.dropped, s.own.rows.length) = (2, 1, 1) ∧ Trail s := by
  have hcounts : ((application localEnv).run .initial lostAndFailed).map
      (fun s ↦ (s.log.rows.length, s.log.dropped, s.own.rows.length)) = some (2, 1, 1) := by
    decide +kernel
  obtain ⟨s, hs, hcount⟩ := Option.map_eq_some_iff.mp hcounts
  exact ⟨s, hs, hcount, trail_run hs⟩

end DatumSync.Api
