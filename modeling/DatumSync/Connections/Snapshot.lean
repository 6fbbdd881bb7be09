import DatumSync.Connections.Store
import DatumSync.Foundation.Machine
import DatumSync.Foundation.TornRead
import DatumSync.Proxy.Confinement

/-!
# Resolving a connection against those who change it

`resolve` and `proxy_request` read the columns of a connection by one statement and its sealed
secret by another, with no transaction around the two.  Writers commit updates, deletions and
re-creations of rows in between.  What is used has the columns and the secret of one version of the
row unless a commit between the two statements changed the secret when it found or left the columns
changed.
-/

namespace DatumSync.Connections

open Foundation Python

/-- What `resolve` and `proxy_request` use besides the table. -/
structure Env where
  server : Server
  /-- `crypto.open_` -/
  openSealed : Str → List UInt8 → Except Exc (List (Str × Json))
  /-- The resolver, the HTTP client, and `str` and `repr`, as the proxy uses them. -/
  outside : Proxy.Outside

/-- The columns of `_COLUMNS` that the callers of `get` read.  The secret is not among them. -/
def Row.facts (row : Row) : Row := { row with description := none, secret := none }

def updated (fields more : List (Str × Json)) : List (Str × Json) :=
  more.foldl (fun d entry ↦ Json.assign d entry.1 entry.2) fields

variable (env : Env)

/-- `resolve` for one name up to the read of its secret. -/
def visible (repository workspace name : Str) (row : Option Row) :
    Except Exc (List (Str × Json)) :=
  match row with
  | none => .error (storeError (str "no connection named " ++ env.server.reprOf name))
  | some row =>
    if row.matchesScope repository workspace then
      (row.loadConfig env.server).map fun config ↦
        updated [(str "name", .text row.name), (str "type", .text row.type),
          (str "access", .text row.access)] config
    else .error (storeError (str "connection " ++ env.server.reprOf name ++ str " is " ++
      row.scope ++ str "-scoped and does not cover " ++ repository ++ str "/" ++ workspace))

/-- `resolve` for one name, given the columns and the secret it has read. -/
def resolved (repository workspace name : Str) (row : Option Row) (blob : Option (List UInt8)) :
    Except Exc (List (Str × Json)) :=
  match visible env repository workspace name row with
  | .error e => .error e
  | .ok object =>
    match blob with
    | none => .ok object
    | some sealed => (env.openSealed name sealed).map (updated object)

/-- `crypto.open_(connection_name, blob) if blob else {}` -/
def opened (name : Str) : Option (List UInt8) → Except Exc (List (Str × Json))
  | none => .ok []
  | some [] => .ok []
  | some sealed => env.openSealed name sealed

/-- The proxy's view of a connection whose columns and opened secret were read. -/
def proxied (row : Option Row) (secret : Except Exc (List (Str × Json))) : Proxy.Outside :=
  { env.outside with
    connection := fun _ ↦
      match row with
      | none => .ok none
      | some row => (row.loadConfig env.server).map fun config ↦
          some { type := row.type, tier := row.tier, config := config }
    secret := fun _ ↦ secret }

/-- Whether the config that was read has an `auth_inject` rule, without which no secret is sent. -/
def injects (row : Option Row) : Bool :=
  match row.map (Row.loadConfig env.server) with
  | some (.ok config) => !(Json.fieldD config (str "auth_inject") .null).isNull
  | _ => false

/-! ## Calls and writers -/

/-- A call of `resolve` or of `proxy_request`. -/
inductive Task where
  | resolve (repository workspace : Str) (names : List Str)
  | proxy (call : Proxy.Call)

/-- The connections a call reads. -/
def Task.names : Task → List Str
  | resolve _ _ names => names
  | proxy call => [call.connectionName]

/-- A connection whose columns and secret were read. -/
structure Taken where
  name : Str
  reading : Reading (Option Row) (Option (List UInt8))

/-- A call between its statements. -/
structure Progress where
  task : Task
  /-- Names whose columns are still to be read. -/
  pending : List Str
  /-- The name whose secret is to be read next, with its columns. -/
  half : Option (Str × Half (Option Row)) := none
  done : List Taken := []

/-- What a call has come to: the connections handed to a workspace, or the requests sent. -/
inductive Use where
  | resolved (taken : List Taken) (connections : List (Str × Json))
  | sent (taken : List Taken) (requests : List Proxy.Request)

/-- The connections whose columns and secrets were used together. -/
def Use.taken : Use → List Taken
  | resolved taken _ => taken
  | sent taken _ => taken

/-- Whether the call goes on to the read of the secret. -/
def Task.admits (row : Option Row) (name : Str) : Task → Bool
  | resolve repository workspace _ => (visible env repository workspace name row).isOk
  | proxy call => (Proxy.loadConnection (proxied env row (.ok [])) call).isOk

/-- Whether the call goes on after the read of the secret. -/
def Task.unseals (taken : Taken) : Task → Bool
  | resolve repository workspace _ =>
    (resolved env repository workspace taken.name taken.reading.first taken.reading.second).isOk
  | proxy _ => (opened env taken.name taken.reading.second).isOk

/-- The `connections` dict of a workspace. -/
def resolvedAll (repository workspace : Str) (done : List Taken) : Except Exc (List (Str × Json)) :=
  match done with
  | [] => .ok []
  | taken :: rest =>
    match resolved env repository workspace taken.name taken.reading.first taken.reading.second,
      resolvedAll repository workspace rest with
    | .ok object, .ok objects => .ok (updated [(taken.name, .obj object)] objects)
    | .error e, _ => .error e
    | _, .error e => .error e

/-- The requests of a proxied call for the columns and the secret it has read. -/
def proxyRequests (call : Proxy.Call) (taken : Taken) : List Proxy.Request :=
  (Proxy.proxyRequest (proxied env taken.reading.first
    (opened env taken.name taken.reading.second)) call).1

/-- What a call that has read all its connections comes to; `none` where it fails. -/
def Task.use (done : List Taken) : Task → Option Use
  | resolve repository workspace _ =>
    (resolvedAll env repository workspace done).toOption.map (.resolved done)
  | proxy call =>
    match done with
    | [taken] =>
      if (proxyRequests env call taken).isEmpty then none
      else some (.sent (if injects env taken.reading.first then [taken] else [])
        (proxyRequests env call taken))
    | _ => none

/-- The rows of `connections`, by name, with their versions; the calls in flight; and what the calls
that ended have come to. -/
structure Snapshot where
  histories : Str → History (Option Row) (Option (List UInt8))
  calls : ℕ → Option Progress := fun _ ↦ none
  uses : List Use := []

/-- A writer's commit, which leaves the row of a name as it says, and the statements of a call. -/
inductive SnapshotAction where
  | commit (name : Str) (row : Option Row)
  | start (u : ℕ) (task : Task)
  | get (u : ℕ)
  | openSecret (u : ℕ)
  | finish (u : ℕ)

namespace Snapshot

def setCall (s : Snapshot) (u : ℕ) (call : Option Progress) : Snapshot :=
  { s with calls := Function.update s.calls u call }

end Snapshot

/-- What a commit does to the flags of a call in flight. -/
def Progress.commit (progress : Progress) (name : Str)
    (history : History (Option Row) (Option (List UInt8))) (row : Option Row) : Progress :=
  { progress with
    half := progress.half.map fun h ↦
      if h.1 = name then (h.1, h.2.commit history (row.map Row.facts) (row.bind Row.secret))
      else h }

namespace Snapshot

variable (s : Snapshot)

/-- An update, a deletion or a re-creation of a row. -/
def commit (name : Str) (row : Option Row) : Snapshot :=
  { s with
    histories := Function.update s.histories name
      ((s.histories name).commit (row.map Row.facts) (row.bind Row.secret))
    calls := fun u ↦ (s.calls u).map fun progress ↦
      progress.commit name (s.histories name) row }

/-- `get(conn, name)` and the checks of the row; a call that a check refuses ends. -/
def get (u : ℕ) : Option Snapshot :=
  match s.calls u with
  | some { task, pending := name :: pending, half := none, done } =>
    let half := (s.histories name).readFirst
    if task.admits env half.value name then
      some (s.setCall u (some { task, pending, half := some (name, half), done }))
    else some (s.setCall u none)
  | _ => none

/-- `_sealed(conn, name)` and `crypto.open_`; a call whose secret does not open ends. -/
def openSecret (u : ℕ) : Option Snapshot :=
  match s.calls u with
  | some { task, pending, half := some (name, half), done } =>
    let taken : Taken := ⟨name, half.complete (s.histories name)⟩
    if task.unseals env taken then
      some (s.setCall u (some { task, pending, half := none, done := done ++ [taken] }))
    else some (s.setCall u none)
  | _ => none

/-- What a call that has read everything comes to. -/
def outcome (u : ℕ) : Option (Option Use) :=
  match s.calls u with
  | some { task, pending := [], half := none, done } => some (task.use env done)
  | _ => none

def finish (u : ℕ) : Option Snapshot :=
  (s.outcome env u).map fun use ↦ { s.setCall u none with uses := s.uses ++ use.toList }

end Snapshot

/-- Calls of `resolve` and `proxy_request` and the writers, statement by statement. -/
def snapshotMachine : Machine Snapshot SnapshotAction where
  step s
    | .commit name row => some (s.commit name row)
    | .start u task =>
      match s.calls u with
      | none => some (s.setCall u (some { task := task, pending := task.names }))
      | some _ => none
    | .get u => s.get env u
    | .openSecret u => s.openSecret env u
    | .finish u => s.finish env u

/-- A table that nobody is using. -/
def Snapshot.start (rows : Str → Option Row) : Snapshot where
  histories name := .start ((rows name).map Row.facts) ((rows name).bind Row.secret)

/-- Whatever was used has the columns and the secret of one committed version of its row. -/
def Snapshot.OneVersion (s : Snapshot) : Prop :=
  ∀ use ∈ s.uses, ∀ taken ∈ use.taken, taken.reading.Whole (s.histories taken.name)

/-- A call that returns or sends has no torn reading among those it uses. -/
def Snapshot.Untorn (s : Snapshot) : SnapshotAction → Prop
  | .finish u => ∀ use, s.outcome env u = some (some use) →
      ∀ taken ∈ use.taken, taken.reading.torn = false
  | _ => True

/-! ## The invariant -/

/-- The readings of a call fit the versions of their rows. -/
structure Progress.Fits (progress : Progress)
    (histories : Str → History (Option Row) (Option (List UInt8))) : Prop where
  half : ∀ name half, progress.half = some (name, half) → half.Fits (histories name)
  done : ∀ taken ∈ progress.done, taken.reading.Fits (histories taken.name)

structure Snapshot.Inv (s : Snapshot) : Prop where
  calls : ∀ u progress, s.calls u = some progress → progress.Fits s.histories
  uses : ∀ use ∈ s.uses, ∀ taken ∈ use.taken,
    taken.reading.Fits (s.histories taken.name) ∧ taken.reading.torn = false

variable {env} {s t : Snapshot}

theorem Progress.Fits.commit {progress : Progress}
    {histories : Str → History (Option Row) (Option (List UInt8))}
    (h : progress.Fits histories) (name : Str) (row : Option Row) :
    (progress.commit name (histories name) row).Fits (Function.update histories name
      ((histories name).commit (row.map Row.facts) (row.bind Row.secret))) where
  half key half hhalf := by
    obtain ⟨⟨key', half'⟩, hbefore, heq⟩ := Option.map_eq_some_iff.mp hhalf
    have hfits := h.half key' half' hbefore
    dsimp only at heq
    by_cases hname : key' = name
    · rw [if_pos hname, Prod.mk.injEq] at heq
      rw [← heq.1, ← heq.2, hname, Function.update_self]
      rw [hname] at hfits
      exact hfits.commit _ _
    · rw [if_neg hname, Prod.mk.injEq] at heq
      rw [← heq.1, ← heq.2, Function.update_of_ne hname]
      exact hfits
  done taken htaken := by
    have hfits := h.done taken htaken
    by_cases hname : taken.name = name
    · rw [hname, Function.update_self]
      rw [hname] at hfits
      exact hfits.commit _ _
    · rw [Function.update_of_ne hname]
      exact hfits

namespace Snapshot.Inv

theorem commit (h : s.Inv) (name : Str) (row : Option Row) : (s.commit name row).Inv where
  calls u progress hprogress := by
    obtain ⟨before, hbefore, rfl⟩ := Option.map_eq_some_iff.mp hprogress
    exact (h.calls u before hbefore).commit name row
  uses use huse taken htaken := by
    obtain ⟨hfits, htorn⟩ := h.uses use huse taken htaken
    refine ⟨?_, htorn⟩
    change taken.reading.Fits (Function.update s.histories name _ taken.name)
    by_cases hname : taken.name = name
    · rw [hname, Function.update_self]
      rw [hname] at hfits
      exact hfits.commit _ _
    · rw [Function.update_of_ne hname]
      exact hfits

theorem setCall (h : s.Inv) {u : ℕ} {call : Option Progress}
    (hcall : ∀ progress, call = some progress → progress.Fits s.histories) :
    (s.setCall u call).Inv where
  calls v progress hprogress := by
    change Function.update s.calls u call v = some progress at hprogress
    by_cases hv : v = u
    · rw [hv, Function.update_self] at hprogress
      exact hcall progress hprogress
    · rw [Function.update_of_ne hv] at hprogress
      exact h.calls v progress hprogress
  uses := h.uses

theorem endCall (h : s.Inv) (u : ℕ) : (s.setCall u none).Inv :=
  h.setCall fun _ hprogress ↦ by cases hprogress

theorem start (h : s.Inv) (u : ℕ) (task : Task) :
    (s.setCall u (some { task := task, pending := task.names })).Inv := by
  apply h.setCall
  intro progress hprogress
  rw [← Option.some.inj hprogress]
  exact ⟨fun _ _ hhalf ↦ (by cases hhalf), fun _ htaken ↦ absurd htaken List.not_mem_nil⟩

theorem get (h : s.Inv) {u : ℕ} (hstep : s.get env u = some t) : t.Inv := by
  unfold Snapshot.get at hstep
  split at hstep
  · next task name pending done hcall =>
    dsimp only at hstep
    split at hstep
    · rw [← Option.some.inj hstep]
      apply h.setCall
      intro progress hprogress
      rw [← Option.some.inj hprogress]
      refine ⟨fun key half hhalf ↦ ?_, (h.calls u _ hcall).done⟩
      obtain ⟨rfl, rfl⟩ := Prod.mk.inj (Option.some.inj hhalf)
      exact History.readFirst_fits _
    · rw [← Option.some.inj hstep]
      exact h.endCall u
  · cases hstep

theorem openSecret (h : s.Inv) {u : ℕ} (hstep : s.openSecret env u = some t) : t.Inv := by
  unfold Snapshot.openSecret at hstep
  split at hstep
  · next task pending name half done hcall =>
    have hfits := h.calls u _ hcall
    dsimp only at hstep
    split at hstep
    · rw [← Option.some.inj hstep]
      apply h.setCall
      intro progress hprogress
      rw [← Option.some.inj hprogress]
      refine ⟨fun _ _ hhalf ↦ (by cases hhalf), fun taken htaken ↦ ?_⟩
      rcases List.mem_append.mp htaken with hbefore | hnow
      · exact hfits.done taken hbefore
      · rw [List.mem_singleton.mp hnow]
        exact (hfits.half name half rfl).complete
    · rw [← Option.some.inj hstep]
      exact h.endCall u
  · cases hstep

end Snapshot.Inv

/-- The readings a call uses are among those it has taken. -/
theorem Task.use_taken {task : Task} {done : List Taken} {use : Use}
    (huse : task.use env done = some use) : ∀ taken ∈ use.taken, taken ∈ done := by
  intro taken htaken
  cases task with
  | resolve repository workspace names =>
    obtain ⟨objects, -, rfl⟩ := Option.map_eq_some_iff.mp huse
    exact htaken
  | proxy call =>
    simp only [Task.use] at huse
    split at huse
    · split at huse
      · cases huse
      · rw [← Option.some.inj huse] at htaken
        change taken ∈ ite _ _ _ at htaken
        split at htaken
        · exact htaken
        · exact absurd htaken List.not_mem_nil
    · cases huse

/-- The readings of an outcome fit the versions of their rows. -/
theorem Snapshot.Inv.outcome (h : s.Inv) {u : ℕ} {use : Use}
    (huse : s.outcome env u = some (some use)) :
    ∀ taken ∈ use.taken, taken.reading.Fits (s.histories taken.name) := by
  intro taken htaken
  unfold Snapshot.outcome at huse
  split at huse
  · next task done hcall =>
    exact (h.calls u _ hcall).done taken
      (Task.use_taken (Option.some.inj huse) taken htaken)
  · cases huse

theorem Snapshot.Inv.finish (h : s.Inv) {u : ℕ} (huntorn : s.Untorn env (.finish u))
    (hstep : s.finish env u = some t) : t.Inv := by
  obtain ⟨outcome, houtcome, rfl⟩ := Option.map_eq_some_iff.mp hstep
  refine ⟨(h.endCall u).calls, fun use huse taken htaken ↦ ?_⟩
  rcases List.mem_append.mp huse with hbefore | hnow
  · exact h.uses use hbefore taken htaken
  · rw [Option.mem_toList] at hnow
    rw [hnow] at houtcome
    exact ⟨h.outcome houtcome taken htaken, huntorn use houtcome taken htaken⟩

/-- A step that uses no torn reading keeps the invariant. -/
theorem Snapshot.Inv.step {a : SnapshotAction} (h : s.Inv) (huntorn : s.Untorn env a)
    (hstep : (snapshotMachine env).step s a = some t) : t.Inv := by
  cases a with
  | commit name row =>
    rw [← Option.some.inj hstep]
    exact h.commit name row
  | start u task =>
    simp only [snapshotMachine] at hstep
    split at hstep
    · rw [← Option.some.inj hstep]
      exact h.start u task
    · cases hstep
  | get u => exact h.get hstep
  | openSecret u => exact h.openSecret hstep
  | finish u => exact h.finish huntorn hstep

theorem Snapshot.Inv.oneVersion (h : s.Inv) : s.OneVersion := by
  intro use huse taken htaken
  obtain ⟨hfits, htorn⟩ := h.uses use huse taken htaken
  exact hfits.whole htorn

/-- A step that uses a torn reading uses the halves of two versions. -/
theorem Snapshot.Inv.torn {a : SnapshotAction} (h : s.Inv) (htorn : ¬ s.Untorn env a)
    (hstep : (snapshotMachine env).step s a = some t) : ¬ t.OneVersion := by
  intro hone
  apply htorn
  cases a with
  | finish u =>
    intro use huse taken htaken
    obtain ⟨outcome, houtcome, rfl⟩ := Option.map_eq_some_iff.mp hstep
    rw [huse] at houtcome
    have hused : use ∈ s.uses ++ outcome.toList := by
      rw [← Option.some.inj houtcome]
      exact List.mem_append_right _ List.mem_cons_self
    exact (h.outcome huse taken htaken).whole_iff.mp (hone use hused taken htaken)
  | commit _ _ | start _ _ | get _ | openSecret _ => trivial

theorem Snapshot.start_inv (rows : Str → Option Row) : (Snapshot.start rows).Inv where
  calls _ _ h := by cases h
  uses _ h := absurd h List.not_mem_nil

/-- What is returned and sent throughout a run has the columns and the secret of one version exactly
when no call of the run returns or sends what it has read torn. -/
theorem oneVersion_iff_untorn {rows : Str → Option Row} {actions : List SnapshotAction}
    (hrun : (snapshotMachine env).run (.start rows) actions = some s) :
    (snapshotMachine env).Always Snapshot.OneVersion (.start rows) actions ↔
      (snapshotMachine env).Meets (Snapshot.Untorn env) (.start rows) actions :=
  Machine.always_iff_meets _ (fun _ h ↦ h.oneVersion) (fun _ _ _ h hC hstep ↦ h.step hC hstep)
    (fun _ _ _ h hC hstep ↦ h.torn hC hstep) hrun (Snapshot.start_inv rows)

/-! ## A connection that is moved to another host -/

/-- The token of a sealed secret is told by its first byte. -/
def sampleEnv : Env where
  server :=
    { reprOf := id
      reprFloat := fun _ ↦ []
      depth := 10
      jsonb := id
      storable := fun _ ↦ true }
  openSealed _ blob :=
    .ok [(str "api_key", .text (if blob = [1] then str "sk-old" else str "sk-new"))]
  outside := Proxy.redirectingApi Proxy.bearerRule

/-- A connection to a host with a sealed token. -/
def apiRow (host : String) (blob : List UInt8) : Row where
  name := str "api"
  type := str "http"
  tier := 1
  scope := str "global"
  scopeTargets := []
  access := str "read"
  description := none
  config := str "\x7b\"base_url\": \"https://" ++ str host ++
    str "\", \"auth_inject\": \x7b\"type\": \"bearer\", \"secret_field\": \"api_key\"\x7d\x7d"
  secret := some blob

def apiRows (name : Str) : Option Row :=
  if name = str "api" then some (apiRow "old.example.com" [1]) else none

/-- The host and the token are replaced by one update, between the two reads if `early` is false. -/
def movedActions (early : Bool) : List SnapshotAction :=
  let move : SnapshotAction := .commit (str "api") (some (apiRow "new.example.net" [2]))
  if early then [.start 0 (.proxy Proxy.agentCall), move, .get 0, .openSecret 0, .finish 0]
  else [.start 0 (.proxy Proxy.agentCall), .get 0, move, .openSecret 0, .finish 0]

theorem oneVersion_iff_untorn_moved :
    (snapshotMachine sampleEnv).Always Snapshot.OneVersion (.start apiRows) (movedActions true) ↔
      (snapshotMachine sampleEnv).Meets (Snapshot.Untorn sampleEnv) (.start apiRows)
        (movedActions true) := by
  have hsome : ((snapshotMachine sampleEnv).run (.start apiRows)
      (movedActions true)).isSome = true := by decide +kernel
  obtain ⟨s, hs⟩ := Option.isSome_iff_exists.mp hsome
  exact oneVersion_iff_untorn hs

def Snapshot.usedStamps (s : Snapshot) : List (Str × ℕ × ℕ) :=
  (s.uses.flatMap Use.taken).map fun taken ↦
    (taken.name, taken.reading.firstStamp, taken.reading.secondStamp)

def Snapshot.sentHeaders (s : Snapshot) : List (Str × List (Str × Str)) :=
  s.uses.flatMap fun use ↦
    match use with
    | .sent _ requests => requests.map fun request ↦ (request.url, request.headers.items)
    | .resolved _ _ => []

/-- A reading with stamps no version has both of is of no version. -/
theorem Snapshot.not_oneVersion {name : Str} {stamps : ℕ × ℕ}
    (hused : (name, stamps) ∈ s.usedStamps)
    (hnone : stamps ∉ (s.histories name).versions.map fun v ↦ (v.firstStamp, v.secondStamp)) :
    ¬ s.OneVersion := by
  intro hone
  obtain ⟨taken, htaken, heq⟩ := List.mem_map.mp hused
  obtain ⟨use, huse, hin⟩ := List.mem_flatMap.mp htaken
  obtain ⟨v, hv, -, -, hfirst, hsecond⟩ := hone use huse taken hin
  obtain ⟨hname, hstamps⟩ := Prod.mk.inj heq
  apply hnone
  rw [← hname, ← hstamps, ← hfirst, ← hsecond]
  exact List.mem_map_of_mem hv

/-- The token of the new host is sent to the old one. -/
theorem movedActions_torn :
    ∃ s, (snapshotMachine sampleEnv).run (.start apiRows) (movedActions false) = some s ∧
      (str "https://old.example.com/v1/items", [(str "Authorization", str "Bearer sk-new")]) ∈
        s.sentHeaders ∧ ¬ s.OneVersion := by
  have hsent : ((snapshotMachine sampleEnv).run (.start apiRows) (movedActions false)).map
      (fun s ↦ s.sentHeaders.head?) = some (some (str "https://old.example.com/v1/items",
        [(str "Authorization", str "Bearer sk-new")])) := by decide +kernel
  have hused : ((snapshotMachine sampleEnv).run (.start apiRows) (movedActions false)).map
      Snapshot.usedStamps = some [(str "api", 0, 1)] := by decide +kernel
  have hversions : ((snapshotMachine sampleEnv).run (.start apiRows) (movedActions false)).map
      (fun s ↦ (s.histories (str "api")).versions.map fun v ↦ (v.firstStamp, v.secondStamp)) =
      some [(1, 1), (0, 0)] := by decide +kernel
  obtain ⟨s, hs, hsent⟩ := Option.map_eq_some_iff.mp hsent
  rw [hs, Option.map_some, Option.some.injEq] at hused hversions
  refine ⟨s, hs, List.mem_of_mem_head? hsent, ?_⟩
  refine Snapshot.not_oneVersion (?_ : (str "api", 0, 1) ∈ s.usedStamps) ?_
  · rw [hused]
    exact List.mem_cons_self
  · rw [hversions]
    decide

end DatumSync.Connections
