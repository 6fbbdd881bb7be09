import DatumSync.Errors
import DatumSync.Python.JsonDumps

/-!
# The connection store

The row of a connection, the checks `create` and `update` make of it, what `update` writes back for
the row it has read, and which workspaces may resolve it.
-/

namespace DatumSync.Connections

open Python

/-- The columns of `connections` that the store reads or writes. -/
structure Row where
  name : Str
  type : Str
  tier : ℤ
  scope : Str
  scopeTargets : List Str
  access : Str
  description : Option Str
  /-- JSON text, as a `jsonb` column gives it. -/
  config : Str
  secret : Option (List UInt8)
  deriving DecidableEq

/-- `repr`, the JSON limits and the database, as the store uses them. -/
structure Server where
  reprOf : Str → Str
  reprFloat : PyFloat → Str
  /-- The nesting limit of `json.loads`. -/
  depth : ℕ
  /-- The text a `jsonb` column gives back for a text that was written to it. -/
  jsonb : Str → Str
  /-- Whether the database takes the values: no text of them holds a NUL or a lone surrogate. -/
  storable : Row → Bool

def types : List Str :=
  [str "database", str "http", str "email_smtp", str "email_imap", str "file",
    str "oauth_client"]

def scopes : List Str := [str "global", str "repository", str "workspace"]

def accesses : List Str := [str "read", str "write"]

/-- `_AUTH_INJECT_TYPES`, sorted. -/
def authInjectTypes : List Str := [str "basic", str "bearer", str "header", str "query_param"]

def forbiddenInConfig : List Str :=
  [str "password", str "passwd", str "pass", str "secret", str "token", str "access_token",
    str "refresh_token", str "client_secret", str "api_key", str "apikey", str "private_key",
    str "passphrase", str "credentials"]

/-- `_REQUIRED_CONFIG.get(type_, ())` -/
def requiredConfig (type : Str) : List Str :=
  if type = str "database" then [str "host", str "database"]
  else if type = str "http" then [str "base_url"]
  else if type = str "email_smtp" then [str "host"]
  else if type = str "email_imap" then [str "host"]
  else if type = str "file" then [str "root"]
  else if type = str "oauth_client" then [str "token_url", str "client_id"]
  else []

def storeError (message : Str) : Exc := .raised .connectionStoreError message

/-- `", ".join(parts)` -/
def comma (parts : List Str) : Str := (str ", ").intercalate parts

/-! ## Validation -/

variable (server : Server)

/-- `if value not in allowed: raise ConnectionStoreError(f"unknown ...")` -/
def checkKnown (what : String) (allowed : List Str) (value : Str) : Except Exc Unit :=
  if value ∈ allowed then .ok ()
  else .error (storeError (str "unknown " ++ str what ++ str " " ++ server.reprOf value ++
    str "; expected one of " ++ comma allowed))

def checkTier (tier : ℤ) : Except Exc Unit :=
  if 1 ≤ tier ∧ tier ≤ 5 then .ok ()
  else .error (storeError (str "tier must be 1-5, got " ++ decimal tier))

def checkTargets (scope : Str) (targets : List Str) : Except Exc Unit :=
  if scope = str "global" ∧ targets ≠ [] then
    .error (storeError (str "a global connection takes no scope_targets"))
  else if scope ≠ str "global" ∧ targets = [] then
    .error (storeError (str "a " ++ scope ++
      str "-scoped connection needs at least one scope_target"))
  else if scope = str "workspace" then
    let bad := targets.filter fun t ↦ t.count (cp '/') != 1
    if bad = [] then .ok ()
    else .error (storeError
      (str "workspace scope_targets are 'Repository/Workspace': " ++ comma bad))
  else .ok ()

/-- No key of the readable half is one of a credential. -/
def checkLeaked (config : List (Str × Json)) : Except Exc Unit :=
  let leaked := (config.map Prod.fst).filter fun key ↦ decide (key ∈ forbiddenInConfig)
  if leaked = [] then .ok ()
  else .error (storeError (commaSorted leaked ++ str
    " belongs in `secret`, not `config` -- `config` is returned by the API and rendered in the UI"))

/-- The keys the type needs are there. -/
def checkRequired (type : Str) (config : List (Str × Json)) : Except Exc Unit :=
  let missing := (requiredConfig type).filter fun key ↦ !(Json.fieldD config key .null).truthy
  if missing = [] then .ok ()
  else .error (storeError (str "a " ++ type ++ str " connection needs config: " ++ comma missing))

def checkAuthInject (type : Str) (config : List (Str × Json)) : Except Exc Unit :=
  match Json.fieldD config (str "auth_inject") .null with
  | .null => .ok ()
  | rule =>
    if type ≠ str "http" then
      .error (storeError (str "auth_inject is only valid for http connections"))
    else match rule with
      | .obj fields =>
        let kind := Json.fieldD fields (str "type") .null
        if !kind.hashable then .error (.raised .typeError (str "unhashable type"))
        else if authInjectTypes.any kind.eqText then .ok ()
        else .error (storeError (str "auth_inject.type must be one of " ++ comma authInjectTypes))
      | _ => .error (storeError (str "auth_inject must be an object"))

def validate (type scope : Str) (targets : List Str) (access : Str) (tier : ℤ)
    (config : List (Str × Json)) : Except Exc Unit := do
  checkKnown server "type" types type
  checkKnown server "scope" scopes scope
  checkKnown server "access" accesses access
  checkTier tier
  checkTargets scope targets
  checkLeaked config
  checkRequired type config
  checkAuthInject type config

def Row.matchesScope (row : Row) (repository workspace : Str) : Bool :=
  if row.scope = str "global" then true
  else if row.scope = str "repository" then decide (repository ∈ row.scopeTargets)
  else decide (repository ++ [cp '/'] ++ workspace ∈ row.scopeTargets)

/-! ## Updating -/

/-- The `changes` of an update; a key that is absent is `none`. -/
structure Changes where
  type : Option Str := none
  tier : Option ℤ := none
  scope : Option Str := none
  scopeTargets : Option (List Str) := none
  access : Option Str := none
  description : Option (Option Str) := none
  config : Option (List (Str × Json)) := none
  secret : Option (Option (List (Str × Json))) := none
  /-- Keys that are not in `_PATCHABLE`. -/
  unknown : List Str := []

def checkKeys (changes : Changes) : Except Exc Unit :=
  if changes.unknown = [] then .ok ()
  else .error (storeError (str "cannot change: " ++ commaSorted changes.unknown))

/-- `json.loads(current["config"])`, which the column holds as an object. -/
def Row.loadConfig (row : Row) : Except Exc (List (Str × Json)) :=
  match loads server.depth row.config with
  | .error e => .error e
  | .ok (.obj config) => .ok config
  | .ok _ => .error (.raised .attributeError (str "object has no attribute 'get'"))

/-- The text the column has after `json.dumps(config)` is written to it. -/
def Server.stored (config : List (Str × Json)) : Str :=
  server.jsonb (dumps server.reprFloat (.obj config))

/-- `crypto.seal(name, changes["secret"]) if changes["secret"] else None`, where the changes name
the secret; `encrypt` is `crypto.seal` for the name. -/
def sealSecret (encrypt : List (Str × Json) → Except Exc (List UInt8)) :
    Option (Option (List (Str × Json))) → Except Exc (Option (Option (List UInt8)))
  | none => .ok none
  | some none => .ok (some none)
  | some (some []) => .ok (some none)
  | some (some payload) => (encrypt payload).map fun blob ↦ some (some blob)

/-- What `update` binds to its `UPDATE` for the row it has read; a secret that the changes do not
name is left to the row. -/
structure Written where
  row : Row
  secret : Option (Option (List UInt8))

/-- `merged`, its config as the column has it. -/
def Row.merge (current : Row) (config : Str) (changes : Changes) : Row :=
  { current with
    type := changes.type.getD current.type
    tier := changes.tier.getD current.tier
    scope := changes.scope.getD current.scope
    scopeTargets := changes.scopeTargets.getD current.scopeTargets
    access := changes.access.getD current.access
    description := changes.description.getD current.description
    config := config }

/-- `update` between its `SELECT` and its `UPDATE`. -/
def plan (encrypt : List (Str × Json) → Except Exc (List UInt8)) (current : Row)
    (changes : Changes) : Except Exc Written := do
  checkKeys changes
  let loaded ← current.loadConfig server
  let config := changes.config.getD loaded
  let merged := current.merge (server.stored config) changes
  validate server merged.type merged.scope merged.scopeTargets merged.access merged.tier config
  let secret ← sealSecret encrypt changes.secret
  if server.storable merged then .ok ⟨merged, secret⟩
  else .error (.raised .databaseError (str "invalid input"))

/-- `UPDATE connections SET type, tier, scope, scope_targets, access, description, config,
secret` -/
def Row.write (row : Row) (written : Written) : Row :=
  { row with
    type := written.row.type
    tier := written.row.tier
    scope := written.row.scope
    scopeTargets := written.row.scopeTargets
    access := written.row.access
    description := written.row.description
    config := written.row.config
    secret := written.secret.getD row.secret }

/-! ## What was checked -/

variable {server}

/-- What an update that was planned writes: the merged columns, checked, and the sealed secret. -/
theorem plan_ok {encrypt : List (Str × Json) → Except Exc (List UInt8)} {current : Row}
    {changes : Changes} {written : Written}
    (h : plan server encrypt current changes = .ok written) :
    ∃ loaded, current.loadConfig server = .ok loaded ∧
      written.row = current.merge (server.stored (changes.config.getD loaded)) changes ∧
      validate server written.row.type written.row.scope written.row.scopeTargets
        written.row.access written.row.tier (changes.config.getD loaded) = .ok () ∧
      sealSecret encrypt changes.secret = .ok written.secret := by
  obtain ⟨_, _, h⟩ := bind_ok h
  obtain ⟨loaded, hloaded, h⟩ := bind_ok h
  obtain ⟨_, hvalid, h⟩ := bind_ok h
  obtain ⟨secret, hsecret, h⟩ := bind_ok h
  split at h
  · rw [← Except.ok.inj h]
    exact ⟨loaded, hloaded, rfl, hvalid, hsecret⟩
  · cases h

/-- What `validate` lets through keeps the constraints of the table. -/
theorem validate_ok {type scope : Str} {targets : List Str} {access : Str} {tier : ℤ}
    {config : List (Str × Json)}
    (h : validate server type scope targets access tier config = .ok ()) :
    type ∈ types ∧ scope ∈ scopes ∧ access ∈ accesses ∧ (1 ≤ tier ∧ tier ≤ 5) ∧
      (scope = str "global" ↔ targets = []) := by
  obtain ⟨_, htype, h⟩ := bind_ok h
  obtain ⟨_, hscope, h⟩ := bind_ok h
  obtain ⟨_, haccess, h⟩ := bind_ok h
  obtain ⟨_, htier, h⟩ := bind_ok h
  obtain ⟨_, htargets, -⟩ := bind_ok h
  have hknown {what : String} {allowed : List Str} {value : Str}
      (hcheck : checkKnown server what allowed value = .ok ()) : value ∈ allowed := by
    by_contra hnot
    rw [checkKnown, if_neg hnot] at hcheck
    cases hcheck
  refine ⟨hknown htype, hknown hscope, hknown haccess, ?_, ?_⟩
  · by_contra hnot
    rw [checkTier, if_neg hnot] at htier
    cases htier
  · unfold checkTargets at htargets
    split at htargets
    · cases htargets
    · next hglobal =>
      split at htargets
      · cases htargets
      · next hother =>
        rw [not_and, not_not] at hglobal
        constructor
        · exact hglobal
        · intro hnone
          by_contra hscoped
          exact hother ⟨hscoped, hnone⟩

end DatumSync.Connections
