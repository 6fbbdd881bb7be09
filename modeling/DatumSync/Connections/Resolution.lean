import DatumSync.Connections.Snapshot

/-!
# The objects a workspace receives

`resolve` merges three maps for each declared name: the name, type and access of the row, the
config, and the opened secret.  Later keys replace earlier ones, the row's own among them.
-/

namespace DatumSync.Python.Json

variable {fields : List (Str × Json)} {key k : Str} {v : Json}

theorem field_cons (value : Json) :
    field ((k, value) :: fields) key = if key = k then some value else field fields key := by
  rw [field, List.lookup_cons]
  split
  · next h => rw [if_pos (beq_iff_eq.mp h)]
  · next h => rw [if_neg (beq_eq_false_iff_ne.mp h), field]

theorem field_assign (fields : List (Str × Json)) (k : Str) (v : Json) (key : Str) :
    field (assign fields k v) key = if key = k then some v else field fields key := by
  induction fields with
  | nil => rw [assign, field_cons]
  | cons entry rest ih =>
    obtain ⟨l, w⟩ := entry
    rw [assign]
    split
    · next hl =>
      rw [field_cons, field_cons, hl]
      split <;> rfl
    · next hl =>
      rw [field_cons, field_cons, ih]
      by_cases hkey : key = l
      · rw [if_pos hkey, if_pos hkey, if_neg (hkey ▸ hl)]
      · rw [if_neg hkey, if_neg hkey]

end DatumSync.Python.Json

namespace DatumSync.Connections

open Python

/-- `fields.get(key)` of a dict; of a key that is listed twice the last counts. -/
def valueIn (fields : List (Str × Json)) (key : Str) : Option Json :=
  Json.field (updated [] fields) key

/-- A key of `{**fields, **more}` has its value of `more`, where it has one. -/
theorem field_updated (fields more : List (Str × Json)) (key : Str) :
    Json.field (updated fields more) key = (valueIn more key).or (Json.field fields key) := by
  have hstep (base : List (Str × Json)) (entry : Str × Json) (rest : List (Str × Json)) :
      updated base (entry :: rest) = updated (Json.assign base entry.1 entry.2) rest := rfl
  induction more generalizing fields with
  | nil => rfl
  | cons entry rest ih =>
    rw [valueIn, hstep, hstep, ih, ih, Json.field_assign, Json.field_assign, Option.or_assoc]
    congr 1
    split <;> rfl

/-! ## Resolution -/

/-- The rows of `connections`; names are unique, and every row was checked. -/
structure Stored (server : Server) where
  rows : List Row
  nodup : (rows.map Row.name).Nodup
  valid : ∀ row ∈ rows, ∃ config, row.loadConfig server = .ok config ∧
    validate server row.type row.scope row.scopeTargets row.access row.tier config = .ok ()

def Stored.get {server : Server} (stored : Stored server) (name : Str) : Option Row :=
  stored.rows.find? fun row ↦ decide (row.name = name)

variable (env : Env) (stored : Stored env.server) (repository workspace : Str)

/-- The loop of `resolve` from a dict that holds what is resolved so far. -/
def resolveFrom : List Str → List (Str × Json) → Except Exc (List (Str × Json))
  | [], objects => .ok objects
  | name :: names, objects => do
    let row := stored.get name
    let object ← resolved env repository workspace name row (row.bind Row.secret)
    resolveFrom names (Json.assign objects name (.obj object))

def resolve (names : List Str) : Except Exc (List (Str × Json)) :=
  resolveFrom env stored repository workspace names []

/-- The columns of a row that its object carries. -/
def Row.identity (row : Row) : List (Str × Json) :=
  [(str "name", .text row.name), (str "type", .text row.type), (str "access", .text row.access)]

/-- The opened secret of a row, empty where there is none. -/
def Row.openSecret (row : Row) : Except Exc (List (Str × Json)) :=
  match row.secret with
  | none => .ok []
  | some blob => env.openSealed row.name blob

/-- A name is missing, out of scope, or has a secret that does not open. -/
def Unavailable (name : Str) : Prop :=
  ∀ row, stored.get name = some row →
    row.matchesScope repository workspace = false ∨ ∃ e, row.openSecret env = .error e

/-- The object of a row: its identity is the row's, and every other key has its value of the secret,
or else of the config. -/
structure Row.Represents (row : Row) (config secret object : List (Str × Json)) : Prop where
  identity : ∀ entry ∈ row.identity, Json.field object entry.1 = some entry.2
  other : ∀ key, key ∉ row.identity.map Prod.fst →
    Json.field object key = (valueIn secret key).or (valueIn config key)

/-- `resolve` raises just for an unavailable name, and else gives each declared name an object that
represents its row. -/
structure Faithful (names : List Str) : Prop where
  raises : (∃ e, resolve env stored repository workspace names = .error e) ↔
    ∃ name ∈ names, Unavailable env stored repository workspace name
  keys : ∀ objects, resolve env stored repository workspace names = .ok objects →
    ∀ name, (Json.field objects name).isSome = true ↔ name ∈ names
  objects : ∀ objects, resolve env stored repository workspace names = .ok objects →
    ∀ name v, Json.field objects name = some v → ∃ row config secret object,
      stored.get name = some row ∧ row.loadConfig env.server = .ok config ∧
        row.openSecret env = .ok secret ∧ v = .obj object ∧ row.Represents config secret object

/-- Neither the config nor the secret gives a name, a type or an access that differs from the row's;
the secret counts first. -/
def Row.Unshadowed (row : Row) (config secret : List (Str × Json)) : Prop :=
  ∀ entry ∈ row.identity, ∀ v,
    (valueIn secret entry.1).or (valueIn config entry.1) = some v → v = entry.2

variable {env stored repository workspace} {names : List Str}

/-! ## One object -/

theorem Stored.get_name {name : Str} {row : Row} (h : stored.get name = some row) :
    row.name = name := by
  have hname := List.find?_some h
  exact of_decide_eq_true hname

theorem Stored.get_loads {name : Str} {row : Row} (h : stored.get name = some row) :
    ∃ config, row.loadConfig env.server = .ok config := by
  obtain ⟨config, hconfig, _⟩ := stored.valid row (List.mem_of_find?_eq_some h)
  exact ⟨config, hconfig⟩

/-- The object of a row that is in scope and whose secret opens. -/
theorem resolved_ok {row : Row} {config secret : List (Str × Json)}
    (hscope : row.matchesScope repository workspace = true)
    (hconfig : row.loadConfig env.server = .ok config)
    (hsecret : row.openSecret env = .ok secret) :
    resolved env repository workspace row.name (some row) row.secret =
      .ok (updated (updated row.identity config) secret) := by
  rw [resolved, visible, if_pos hscope, hconfig, Except.map]
  unfold Row.openSecret at hsecret
  cases hblob : row.secret with
  | none =>
    rw [hblob] at hsecret
    rw [← Except.ok.inj hsecret]
    rfl
  | some blob =>
    rw [hblob] at hsecret
    dsimp only at hsecret ⊢
    rw [hsecret]
    rfl

/-- An available name has a row, in scope, whose config loads and whose secret opens. -/
theorem exists_of_available {name : Str} (h : ¬ Unavailable env stored repository workspace name) :
    ∃ row config secret, stored.get name = some row ∧
      row.matchesScope repository workspace = true ∧ row.loadConfig env.server = .ok config ∧
      row.openSecret env = .ok secret := by
  simp only [Unavailable, not_forall, not_or, Bool.not_eq_false] at h
  obtain ⟨row, hrow, hscope, hopens⟩ := h
  obtain ⟨config, hconfig⟩ := Stored.get_loads hrow
  cases hsecret : row.openSecret env with
  | error e => exact absurd ⟨e, hsecret⟩ hopens
  | ok secret => exact ⟨row, config, secret, hrow, hscope, hconfig, hsecret⟩

theorem resolved_error {name : Str} (h : Unavailable env stored repository workspace name) :
    ∃ e, resolved env repository workspace name (stored.get name)
      ((stored.get name).bind Row.secret) = .error e := by
  cases hrow : stored.get name with
  | none => exact ⟨_, rfl⟩
  | some row =>
    obtain ⟨config, hconfig⟩ := Stored.get_loads hrow
    rw [resolved, visible]
    by_cases hscope : row.matchesScope repository workspace = true
    · rw [if_pos hscope, hconfig]
      obtain hno | ⟨e, he⟩ := h row hrow
      · exact absurd hscope (Bool.eq_false_iff.mp hno)
      · unfold Row.openSecret at he
        rw [Stored.get_name hrow] at he
        cases hblob : row.secret with
        | none =>
          rw [hblob] at he
          cases he
        | some blob =>
          rw [hblob] at he
          dsimp only at he
          rw [Option.bind_some, hblob]
          exact ⟨e, by dsimp only [Except.map]; rw [he]⟩
    · rw [if_neg hscope]
      exact ⟨_, rfl⟩

theorem field_identity_eq_none {row : Row} {key : Str} (h : key ∉ row.identity.map Prod.fst) :
    Json.field row.identity key = none := by
  rw [Json.field, List.lookup_eq_none_iff]
  intro entry hentry
  rw [bne_iff_ne]
  rintro rfl
  exact h (List.mem_map_of_mem hentry)

theorem field_identity {row : Row} {entry : Str × Json} (h : entry ∈ row.identity) :
    Json.field row.identity entry.1 = some entry.2 := by
  obtain rfl | rfl | rfl : entry = _ ∨ entry = _ ∨ entry = _ := by simpa [Row.identity] using h
  all_goals rfl

/-- The merged object represents its row just when the row's columns are not shadowed. -/
theorem represents_iff {row : Row} {config secret : List (Str × Json)} :
    row.Represents config secret (updated (updated row.identity config) secret) ↔
      row.Unshadowed config secret := by
  have hfield (key : Str) : Json.field (updated (updated row.identity config) secret) key =
      ((valueIn secret key).or (valueIn config key)).or (Json.field row.identity key) := by
    rw [field_updated, field_updated, Option.or_assoc]
  constructor
  · intro h entry hentry v hv
    have hidentity := h.identity entry hentry
    rw [hfield, hv, Option.some_or] at hidentity
    exact Option.some.inj hidentity
  · refine fun h ↦ ⟨fun entry hentry ↦ ?_, fun key hkey ↦ ?_⟩
    · rw [hfield, field_identity hentry]
      cases hv : (valueIn secret entry.1).or (valueIn config entry.1) with
      | none => rfl
      | some v => rw [h entry hentry v hv, Option.some_or]
    · rw [hfield, field_identity_eq_none hkey, Option.or_none]

/-! ## The loop -/

theorem resolveFrom_error (h : ∃ name ∈ names, Unavailable env stored repository workspace name)
    (objects : List (Str × Json)) :
    ∃ e, resolveFrom env stored repository workspace names objects = .error e := by
  induction names generalizing objects with
  | nil => exact absurd h (by simp)
  | cons name rest ih =>
    rw [resolveFrom]
    cases hobject : resolved env repository workspace name (stored.get name)
      ((stored.get name).bind Row.secret) with
    | error e => exact ⟨e, rfl⟩
    | ok object =>
      obtain ⟨other, hother, hunavailable⟩ := h
      obtain rfl | hrest := List.mem_cons.mp hother
      · obtain ⟨e, he⟩ := resolved_error hunavailable
        rw [he] at hobject
        cases hobject
      · exact ih ⟨other, hrest, hunavailable⟩ _

/-- Where all names are available each gets the merge of its row, and no other name gets one. -/
theorem resolveFrom_ok (h : ∀ name ∈ names, ¬ Unavailable env stored repository workspace name)
    (objects : List (Str × Json)) :
    ∃ result, resolveFrom env stored repository workspace names objects = .ok result ∧
      (∀ name ∈ names, ∃ row config secret, stored.get name = some row ∧
        row.loadConfig env.server = .ok config ∧ row.openSecret env = .ok secret ∧
        Json.field result name = some (.obj (updated (updated row.identity config) secret))) ∧
      ∀ name ∉ names, Json.field result name = Json.field objects name := by
  induction names generalizing objects with
  | nil => exact ⟨objects, rfl, List.forall_mem_nil _, fun _ _ ↦ rfl⟩
  | cons name rest ih =>
    obtain ⟨hname, hrest⟩ := List.forall_mem_cons.mp h
    obtain ⟨row, config, secret, hrow, hscope, hconfig, hsecret⟩ := exists_of_available hname
    have hobject := resolved_ok hscope hconfig hsecret
    rw [Stored.get_name hrow] at hobject
    obtain ⟨result, hresult, hin, hout⟩ := ih hrest (Json.assign objects name
      (.obj (updated (updated row.identity config) secret)))
    refine ⟨result, ?_, List.forall_mem_cons.mpr ⟨?_, hin⟩, fun other hother ↦ ?_⟩
    · rw [resolveFrom, hrow, Option.bind_some, hobject]
      exact hresult
    · by_cases hagain : name ∈ rest
      · exact hin name hagain
      · refine ⟨row, config, secret, hrow, hconfig, hsecret, ?_⟩
        rw [hout name hagain, Json.field_assign, if_pos rfl]
    · rw [List.mem_cons, not_or] at hother
      rw [hout other hother.2, Json.field_assign, if_neg hother.1]

theorem resolve_error_iff : (∃ e, resolve env stored repository workspace names = .error e) ↔
    ∃ name ∈ names, Unavailable env stored repository workspace name := by
  refine ⟨fun ⟨e, he⟩ ↦ ?_, fun h ↦ resolveFrom_error h []⟩
  by_contra hnone
  obtain ⟨result, hresult, -⟩ :=
    resolveFrom_ok (fun name hname hun ↦ hnone ⟨name, hname, hun⟩ : ∀ name ∈ names, _) []
  rw [resolve, hresult] at he
  cases he

/-- The objects are faithful just when a declared name is unavailable, or no config and no secret
of a declared connection shadows the columns of its row. -/
theorem faithful_iff_unshadowed : Faithful env stored repository workspace names ↔
    (∃ name ∈ names, Unavailable env stored repository workspace name) ∨
      ∀ name ∈ names, ∀ row config secret, stored.get name = some row →
        row.loadConfig env.server = .ok config → row.openSecret env = .ok secret →
          row.Unshadowed config secret := by
  by_cases hun : ∃ name ∈ names, Unavailable env stored repository workspace name
  · obtain ⟨e, he⟩ := resolve_error_iff.mpr hun
    refine iff_of_true ⟨resolve_error_iff, ?_, ?_⟩ (.inl hun)
    · intro objects hobjects
      rw [he] at hobjects
      cases hobjects
    · intro objects hobjects
      rw [he] at hobjects
      cases hobjects
  · rw [or_iff_right hun]
    have havailable : ∀ name ∈ names, ¬ Unavailable env stored repository workspace name :=
      fun name hname h ↦ hun ⟨name, hname, h⟩
    obtain ⟨result, hresult, hin, hout⟩ := resolveFrom_ok havailable []
    constructor
    · intro h name hname row config secret hrow hconfig hsecret
      obtain ⟨row₁, config₁, secret₁, hrow₁, hconfig₁, hsecret₁, hfield⟩ := hin name hname
      obtain ⟨row₂, config₂, secret₂, object, hrow₂, hconfig₂, hsecret₂, hobject, hrepresents⟩ :=
        h.objects result hresult name _ hfield
      obtain rfl := Option.some.inj (hrow₁.symm.trans hrow)
      obtain rfl := Option.some.inj (hrow₂.symm.trans hrow)
      obtain rfl := Except.ok.inj (hconfig₁.symm.trans hconfig)
      obtain rfl := Except.ok.inj (hconfig₂.symm.trans hconfig)
      obtain rfl := Except.ok.inj (hsecret₁.symm.trans hsecret)
      obtain rfl := Except.ok.inj (hsecret₂.symm.trans hsecret)
      rw [← Json.obj.inj hobject] at hrepresents
      exact represents_iff.mp hrepresents
    · intro h
      have hkeys (name : Str) : (Json.field result name).isSome = true ↔ name ∈ names := by
        by_cases hname : name ∈ names
        · obtain ⟨row, config, secret, -, -, -, hfield⟩ := hin name hname
          rw [hfield]
          exact iff_of_true rfl hname
        · rw [hout name hname]
          exact iff_of_false nofun hname
      refine ⟨resolve_error_iff, fun objects hobjects ↦ ?_, fun objects hobjects name v hv ↦ ?_⟩
      · obtain rfl := Except.ok.inj (hresult.symm.trans hobjects)
        exact hkeys
      · obtain rfl := Except.ok.inj (hresult.symm.trans hobjects)
        have hname := (hkeys name).mp (Option.isSome_of_eq_some hv)
        obtain ⟨row, config, secret, hrow, hconfig, hsecret, hfield⟩ := hin name hname
        exact ⟨row, config, secret, _, hrow, hconfig, hsecret,
          Option.some.inj (hv.symm.trans hfield),
          represents_iff.mpr (h name hname row config secret hrow hconfig hsecret)⟩

/-- A directory that the workspace may read. -/
def filesRow (config : String) : Row where
  name := str "files"
  type := str "file"
  tier := 1
  scope := str "global"
  scopeTargets := []
  access := str "read"
  description := none
  config := str config
  secret := none

def filesStored : Stored sampleEnv.server where
  rows := [filesRow "\x7b\"root\": \"/srv\", \"access\": \"write\"\x7d"]
  nodup := List.nodup_singleton _
  valid := List.forall_mem_singleton.mpr
    ⟨[(str "root", .text (str "/srv")), (str "access", .text (str "write"))], by decide +kernel,
      by decide +kernel⟩

/-- A config is accepted that makes a connection stored for reading one for writing. -/
theorem filesStored_not_faithful :
    ¬ Faithful sampleEnv filesStored (str "Any") (str "ws") [str "files"] := by
  intro h
  have hobjects : resolve sampleEnv filesStored (str "Any") (str "ws") [str "files"] =
      .ok [(str "files", .obj [(str "name", .text (str "files")),
        (str "type", .text (str "file")), (str "access", .text (str "write")),
        (str "root", .text (str "/srv"))])] := by decide +kernel
  obtain ⟨row, config, secret, object, hrow, -, -, hobject, hrepresents⟩ :=
    h.objects _ hobjects (str "files") _ rfl
  obtain rfl := Option.some.inj hrow
  have haccess := hrepresents.identity (str "access", .text (str "read")) (by decide +kernel)
  rw [← Json.obj.inj hobject] at haccess
  exact absurd haccess (by decide +kernel)

end DatumSync.Connections
