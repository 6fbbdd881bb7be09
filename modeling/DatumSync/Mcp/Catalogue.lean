import DatumSync.Api.Repositories
import DatumSync.Foundation.UniqueLoad
import DatumSync.Mcp.Arguments
import DatumSync.Mcp.Endpoint

/-!
# The tool catalogue

`catalogue` reads every published workspace in the order of its repository and name, passes over
those that the caller's scope does not allow and those that cannot be called over MCP, and refuses
two workspaces with one tool name.  A tool call reads the catalogue again and runs the workspace
that is listed under the name.
-/

namespace DatumSync.Mcp

open Python Foundation

/-! ## The published workspaces -/

structure RepositoryRow where
  id : ℤ
  name : Str

structure WorkspaceRow where
  repositoryId : ℤ
  name : Str
  manifest : Str

/-- Both tables, with their unique keys. -/
structure Registry where
  repositories : List RepositoryRow
  workspaces : List WorkspaceRow
  repositoryIds : (repositories.map (·.id)).Nodup
  repositoryNames : (repositories.map (·.name)).Nodup
  workspaceNames : (workspaces.map fun w ↦ (w.repositoryId, w.name)).Nodup

structure CatalogueRow where
  repository : Str
  workspace : Str
  manifest : Str

/-- `workspaces w JOIN repositories r ON r.id = w.repository_id` -/
def Registry.rows (db : Registry) : List CatalogueRow :=
  db.workspaces.filterMap fun w ↦
    (db.repositories.find? fun r ↦ r.id == w.repositoryId).map fun r ↦ ⟨r.name, w.name, w.manifest⟩

/-- The order of the database's collation, in which only equal texts compare equal. -/
structure Collation where
  le : Str → Str → Bool
  total : ∀ a b, le a b || le b a
  trans : ∀ a b c, le a b → le b c → le a c
  antisymm : ∀ a b, le a b → le b a → a = b

/-- `ORDER BY r.name, w.name` -/
def Collation.rowLe (collation : Collation) (a b : CatalogueRow) : Bool :=
  if a.repository = b.repository then collation.le a.workspace b.workspace
  else collation.le a.repository b.repository

def Registry.fetch (db : Registry) (collation : Collation) : List CatalogueRow :=
  db.rows.mergeSort collation.rowLe

/-! ## The catalogue -/

/-- `_UNSAFE_TOOL_CHAR.sub("_", c)` -/
def safeToolChar (c : CodePoint) : CodePoint :=
  if decide (0x41 ≤ c.val ∧ c.val ≤ 0x5A) || decide (0x61 ≤ c.val ∧ c.val ≤ 0x7A) || isDigit c ||
    c == cp '_' || c == cp '-' then c
  else cp '_'

def toolName (repo ws : Str) : Str := ((repo ++ str "__" ++ ws).map safeToolChar).take 128

/-- The part of a stored manifest that the catalogue reads. -/
structure ToolManifest extends Interface where
  description : Option Str := none

/-- An entry of the catalogue: `(repo, ws, manifest)`. -/
structure Tool where
  repository : Str
  workspace : Str
  manifest : ToolManifest

def Tool.name (tool : Tool) : Str := toolName tool.repository tool.workspace

/-- What the catalogue works with: `Manifest.model_validate`, how deep `json.loads` nests, `repr`,
and the order of the rows. -/
structure CatalogueEnv where
  validate : Json → Except Exc ToolManifest
  depth : ℕ
  display : Display
  collation : Collation

/-- `Manifest.model_validate(json.loads(row["manifest"]))` -/
def CatalogueEnv.readManifest (env : CatalogueEnv) (text : Str) : Except Exc ToolManifest := do
  env.validate (← loads env.depth text)

def CatalogueEnv.readRow (env : CatalogueEnv) (principal : Principal) (row : CatalogueRow) :
    Except Exc (Option Tool) :=
  if Api.allowsRepo principal (.text row.repository) = false then .ok none
  else match env.readManifest row.manifest with
    | .error e => .error e
    | .ok manifest =>
      if callableByMcp manifest.toInterface = false then .ok none
      else .ok (some ⟨row.repository, row.workspace, manifest⟩)

/-- The `RpcError` for two workspaces that claim one tool name. -/
def CatalogueEnv.clashError (env : CatalogueEnv) (clash tool : Tool) : Exc :=
  .rpc internalError (str "tool name " ++ env.display.reprText tool.name ++
    str " is claimed by both " ++ clash.repository ++ str "/" ++ clash.workspace ++ str " and " ++
    tool.repository ++ str "/" ++ tool.workspace) none

def catalogue (env : CatalogueEnv) (db : Registry) (principal : Principal) :
    Except Exc (List (Str × Tool)) :=
  loadUnique (env.readRow principal) Tool.name env.clashError [] (db.fetch env.collation)

/-- `manifest.description or f"Run the {ws} workspace in {repo}."` -/
def Tool.description (tool : Tool) : Str :=
  match tool.manifest.description with
  | some (c :: rest) => c :: rest
  | _ => str "Run the " ++ tool.workspace ++ str " workspace in " ++ tool.repository ++ str "."

def toolJson (name : Str) (tool : Tool) : Json :=
  .obj [(str "name", .text name),
    (str "title", .text (tool.repository ++ str " / " ++ tool.workspace)),
    (str "description", .text tool.description),
    (str "inputSchema", inputSchema tool.manifest.toInterface)]

/-- A backend whose catalogue is read from the tables and whose tools run what is listed:
`runSync` is `execute.run_sync`, and the other operations are those of `rest`. -/
def registryBackend (env : CatalogueEnv) (db : Registry) (principal : Principal)
    (runSync : (repo ws : Str) → (submitted : List (Str × Str)) → (service : Str) →
      Except Exc Json) (rest : Backend) : Backend :=
  { rest with
    catalogue := (catalogue env db principal).map fun found ↦
      found.map fun entry ↦ (entry.1, toolJson entry.1 entry.2)
    runSync := fun name submitted ↦ do
      match (← catalogue env db principal).lookup name with
      | some tool => runSync tool.repository tool.workspace submitted mcpService
      | none => throw (.raised .keyError (env.display.reprText name)) }

/-! ## The fetched rows -/

/-- No two rows are of one workspace. -/
theorem Registry.rows_nodup (db : Registry) :
    (db.rows.map fun row ↦ (row.repository, row.workspace)).Nodup := by
  have hnames := db.workspaceNames
  rw [List.Nodup, List.pairwise_map] at hnames
  rw [List.Nodup, List.pairwise_map, Registry.rows, List.pairwise_filterMap]
  refine hnames.imp fun {w w'} hne row hrow row' hrow' heq ↦ hne ?_
  obtain ⟨r, hr, rfl⟩ := Option.map_eq_some_iff.mp hrow
  obtain ⟨r', hr', rfl⟩ := Option.map_eq_some_iff.mp hrow'
  obtain ⟨hrepository, hworkspace⟩ := Prod.mk.inj heq
  have hid : r.id = w.repositoryId := by simpa using List.find?_some hr
  have hid' : r'.id = w'.repositoryId := by simpa using List.find?_some hr'
  have hsame : r = r' := List.inj_on_of_nodup_map db.repositoryNames (List.mem_of_find?_eq_some hr)
    (List.mem_of_find?_eq_some hr') hrepository
  rw [Prod.mk.injEq, ← hid, ← hid', hsame]
  exact ⟨rfl, hworkspace⟩

theorem Registry.mem_fetch {db : Registry} {collation : Collation} {row : CatalogueRow} :
    row ∈ db.fetch collation ↔ row ∈ db.rows := List.mem_mergeSort

/-- Two rows of one workspace are the same row. -/
theorem Registry.row_ext {db : Registry} {a b : CatalogueRow} (ha : a ∈ db.rows)
    (hb : b ∈ db.rows) (hrepository : a.repository = b.repository)
    (hworkspace : a.workspace = b.workspace) : a = b :=
  List.inj_on_of_nodup_map db.rows_nodup ha hb (Prod.ext hrepository hworkspace)

namespace Collation

variable (collation : Collation)

theorem rowLe_total (a b : CatalogueRow) :
    (collation.rowLe a b || collation.rowLe b a) = true := by
  unfold rowLe
  by_cases h : a.repository = b.repository
  · rw [if_pos h, if_pos h.symm]
    exact collation.total _ _
  · rw [if_neg h, if_neg (Ne.symm h)]
    exact collation.total _ _

theorem rowLe_trans (a b c : CatalogueRow) (hab : collation.rowLe a b = true)
    (hbc : collation.rowLe b c = true) : collation.rowLe a c = true := by
  unfold rowLe at *
  by_cases h : a.repository = b.repository
  · rw [if_pos h] at hab
    by_cases h' : b.repository = c.repository
    · rw [if_pos h'] at hbc
      rw [if_pos (h.trans h')]
      exact collation.trans _ _ _ hab hbc
    · rw [if_neg h'] at hbc
      rwa [if_neg (by rwa [h]), h]
  · rw [if_neg h] at hab
    by_cases h' : b.repository = c.repository
    · rwa [if_neg (by rwa [← h']), ← h']
    · rw [if_neg h'] at hbc
      have hac := collation.trans _ _ _ hab hbc
      by_cases hsame : a.repository = c.repository
      · exact absurd (collation.antisymm _ _ hab (hsame ▸ hbc)) h
      · rwa [if_neg hsame]

theorem rowLe_antisymm (a b : CatalogueRow) (hab : collation.rowLe a b = true)
    (hba : collation.rowLe b a = true) :
    a.repository = b.repository ∧ a.workspace = b.workspace := by
  unfold rowLe at *
  by_cases h : a.repository = b.repository
  · rw [if_pos h] at hab
    rw [if_pos h.symm] at hba
    exact ⟨h, collation.antisymm _ _ hab hba⟩
  · rw [if_neg h] at hab
    rw [if_neg (Ne.symm h)] at hba
    exact absurd (collation.antisymm _ _ hab hba) h

end Collation

theorem Registry.fetch_pairwise (db : Registry) (collation : Collation) :
    (db.fetch collation).Pairwise fun a b ↦ collation.rowLe a b = true :=
  List.pairwise_mergeSort collation.rowLe_trans collation.rowLe_total db.rows

/-- The tables hold the same workspaces in the repositories that the caller is allowed. -/
def AgreeWithin (principal : Principal) (db db' : Registry) : Prop :=
  ∀ row : CatalogueRow, Api.allowsRepo principal (.text row.repository) = true →
    (row ∈ db.rows ↔ row ∈ db'.rows)

/-- The allowed rows come in the same order. -/
theorem AgreeWithin.fetch_filter {principal : Principal} {db db' : Registry}
    (h : AgreeWithin principal db db') (collation : Collation) :
    ((db.fetch collation).filter fun row ↦ Api.allowsRepo principal (.text row.repository)) =
      (db'.fetch collation).filter fun row ↦ Api.allowsRepo principal (.text row.repository) := by
  have hnodup (db : Registry) : ((db.fetch collation).filter fun row ↦
      Api.allowsRepo principal (.text row.repository)).Nodup :=
    ((List.mergeSort_perm db.rows _).nodup_iff.mpr db.rows_nodup.of_map).filter _
  have hperm : ((db.fetch collation).filter fun row ↦
      Api.allowsRepo principal (.text row.repository)).Perm
        ((db'.fetch collation).filter fun row ↦
          Api.allowsRepo principal (.text row.repository)) := by
    rw [List.perm_ext_iff_of_nodup (hnodup db) (hnodup db')]
    intro row
    rw [List.mem_filter, List.mem_filter, Registry.mem_fetch, Registry.mem_fetch]
    exact and_congr_left (h row)
  refine hperm.eq_of_pairwise (fun a b ha hb hab hba ↦ ?_) ((db.fetch_pairwise collation).filter _)
    ((db'.fetch_pairwise collation).filter _)
  obtain ⟨hrepository, hworkspace⟩ := collation.rowLe_antisymm a b hab hba
  have hb' := hperm.mem_iff.mpr hb
  exact Registry.row_ext (Registry.mem_fetch.mp (List.mem_of_mem_filter ha))
    (Registry.mem_fetch.mp (List.mem_of_mem_filter hb')) hrepository hworkspace

/-! ## The names -/

/-- A tool name is as long as may be, or has two underscores in a row. -/
theorem toolName_long_or_joined (repo ws : Str) :
    (toolName repo ws).length = 128 ∨ [cp '_', cp '_'] <:+: toolName repo ws := by
  have hparts : (repo ++ str "__" ++ ws).map safeToolChar =
      repo.map safeToolChar ++ [cp '_', cp '_'] ++ ws.map safeToolChar := by
    rw [List.map_append, List.map_append]
    rfl
  rw [toolName, hparts]
  by_cases hlength : 128 ≤
      (repo.map safeToolChar ++ [cp '_', cp '_'] ++ ws.map safeToolChar).length
  · exact .inl (List.length_take_of_le hlength)
  · rw [List.take_of_length_le (Nat.le_of_not_le hlength)]
    exact .inr ⟨repo.map safeToolChar, ws.map safeToolChar, rfl⟩

/-- No workspace takes the name of a static tool. -/
theorem toolName_not_static (repo ws : Str) :
    toolName repo ws ≠ proxyToolName ∧ toolName repo ws ∉ vaultToolNames := by
  have hstatic : ∀ name ∈ proxyToolName :: vaultToolNames,
      name.length ≠ 128 ∧ ¬ [cp '_', cp '_'] <:+: name := by decide
  have hnot : toolName repo ws ∉ proxyToolName :: vaultToolNames := by
    intro hmem
    obtain ⟨hlength, hinfix⟩ := hstatic _ hmem
    exact (toolName_long_or_joined repo ws).elim hlength hinfix
  rw [List.mem_cons, not_or] at hnot
  exact hnot

/-! ## What a catalogue lists -/

section Listing

variable {env : CatalogueEnv} {db : Registry} {principal : Principal} {row : CatalogueRow}
  {tool : Tool} {e : Exc}

theorem readRow_eq_some : env.readRow principal row = .ok (some tool) ↔
    Api.allowsRepo principal (.text row.repository) = true ∧
      env.readManifest row.manifest = .ok tool.manifest ∧
      callableByMcp tool.manifest.toInterface = true ∧ tool.repository = row.repository ∧
      tool.workspace = row.workspace := by
  unfold CatalogueEnv.readRow
  cases hallowed : Api.allowsRepo principal (.text row.repository) with
  | false => exact iff_of_false nofun fun h ↦ nomatch h.1
  | true =>
    rw [if_neg (by decide)]
    cases hread : env.readManifest row.manifest with
    | error e => exact iff_of_false nofun fun h ↦ nomatch h.2.1
    | ok manifest =>
      dsimp only
      cases hcallable : callableByMcp manifest.toInterface with
      | false =>
        refine iff_of_false nofun fun h ↦ ?_
        rw [← Except.ok.inj h.2.1, hcallable] at h
        exact nomatch h.2.2.1
      | true =>
        rw [if_neg (by decide)]
        obtain ⟨repository, workspace, held⟩ := tool
        rw [Except.ok.injEq, Option.some.injEq, Tool.mk.injEq, Except.ok.injEq]
        constructor
        · rintro ⟨rfl, rfl, rfl⟩
          exact ⟨rfl, rfl, hcallable, rfl, rfl⟩
        · rintro ⟨-, rfl, -, rfl, rfl⟩
          exact ⟨rfl, rfl, rfl⟩

/-- A row is refused for its manifest, and only where it is allowed. -/
theorem readRow_eq_error : env.readRow principal row = .error e ↔
    Api.allowsRepo principal (.text row.repository) = true ∧
      env.readManifest row.manifest = .error e := by
  unfold CatalogueEnv.readRow
  cases hallowed : Api.allowsRepo principal (.text row.repository) with
  | false => exact iff_of_false nofun fun h ↦ nomatch h.1
  | true =>
    rw [if_neg (by decide), and_iff_right rfl]
    cases hread : env.readManifest row.manifest with
    | error e' =>
      dsimp only
      rw [Except.error.injEq, Except.error.injEq]
    | ok manifest =>
      dsimp only
      refine iff_of_false ?_ nofun
      split <;> nofun

theorem readRow_not_allowed (h : Api.allowsRepo principal (.text row.repository) = false) :
    env.readRow principal row = .ok none := if_pos h

/-- The tool is a workspace of an allowed repository that can be called over MCP, with its stored
manifest. -/
structure Offered (env : CatalogueEnv) (db : Registry) (principal : Principal) (tool : Tool) :
    Prop where
  allowed : Api.allowsRepo principal (.text tool.repository) = true
  stored : ∃ row ∈ db.rows, row.repository = tool.repository ∧ row.workspace = tool.workspace ∧
    env.readManifest row.manifest = .ok tool.manifest
  callable : callableByMcp tool.manifest.toInterface = true

/-- Two of the tools share a name. -/
def Clash (env : CatalogueEnv) (db : Registry) (principal : Principal) (clash tool : Tool) : Prop :=
  Offered env db principal clash ∧ Offered env db principal tool ∧
    (clash.repository, clash.workspace) ≠ (tool.repository, tool.workspace) ∧
    clash.name = tool.name

theorem offered_iff : Offered env db principal tool ↔
    ∃ row ∈ db.fetch env.collation, env.readRow principal row = .ok (some tool) := by
  constructor
  · rintro ⟨hallowed, ⟨row, hrow, hrepository, hworkspace, hread⟩, hcallable⟩
    refine ⟨row, Registry.mem_fetch.mpr hrow, readRow_eq_some.mpr ?_⟩
    exact ⟨by rwa [hrepository], hread, hcallable, hrepository.symm, hworkspace.symm⟩
  · rintro ⟨row, hrow, hread⟩
    obtain ⟨hallowed, hmanifest, hcallable, hrepository, hworkspace⟩ := readRow_eq_some.mp hread
    refine ⟨by rwa [hrepository], ⟨row, Registry.mem_fetch.mp hrow, ?_⟩, hcallable⟩
    exact ⟨hrepository.symm, hworkspace.symm, hmanifest⟩

/-- The catalogue is a function of names onto the tools that are offered. -/
structure Routes (env : CatalogueEnv) (db : Registry) (principal : Principal)
    (found : List (Str × Tool)) : Prop where
  named : ∀ entry ∈ found, entry.1 = entry.2.name
  distinct : (found.map Prod.fst).Nodup
  once : (found.map fun entry ↦ (entry.2.repository, entry.2.workspace)).Nodup
  exact : ∀ tool, (∃ name, (name, tool) ∈ found) ↔ Offered env db principal tool
  notStatic : ∀ entry ∈ found, entry.1 ≠ proxyToolName ∧ entry.1 ∉ vaultToolNames

theorem catalogue_ends : Ends (env.readRow principal) Tool.name env.clashError
    (db.fetch env.collation) (catalogue env db principal) := ends_loadUnique _

/-- Where the catalogue is built, it routes. -/
theorem routes_catalogue {found : List (Str × Tool)}
    (h : catalogue env db principal = .ok found) : Routes env db principal found := by
  have hends := @catalogue_ends env db principal
  rw [h] at hends
  cases hends with
  | loaded distinct accepted =>
    have hentry {name : Str} {tool : Tool} := @mem_keyed _ _ _ _ (env.readRow principal) Tool.name
      (db.fetch env.collation) name tool
    have hnamed : ∀ entry ∈ keyed (env.readRow principal) Tool.name (db.fetch env.collation),
        entry.1 = entry.2.name := fun entry hmem ↦ (hentry.mp hmem).1
    refine ⟨hnamed, distinct, ?_, fun tool ↦ ?_, fun entry hmem ↦ ?_⟩
    · have hkeys := distinct
      rw [List.Nodup, List.pairwise_map] at hkeys ⊢
      refine hkeys.imp_of_mem fun {a b} ha hb hne heq ↦ hne ?_
      obtain ⟨hrepository, hworkspace⟩ := Prod.mk.inj heq
      rw [hnamed a ha, hnamed b hb, Tool.name, Tool.name, hrepository, hworkspace]
    · rw [offered_iff]
      constructor
      · rintro ⟨name, hmem⟩
        exact (hentry.mp hmem).2
      · exact fun hrow ↦ ⟨tool.name, hentry.mpr ⟨rfl, hrow⟩⟩
    · rw [hnamed entry hmem]
      exact toolName_not_static _ _

/-- Where it is not, an allowed manifest was refused, or two of the tools clash. -/
theorem clash_of_catalogue (h : catalogue env db principal = .error e) :
    (∃ row ∈ db.rows, Api.allowsRepo principal (.text row.repository) = true ∧
        env.readManifest row.manifest = .error e) ∨
      ∃ clash tool, Clash env db principal clash tool ∧ e = env.clashError clash tool := by
  have hends := @catalogue_ends env db principal
  rw [h] at hends
  cases hends with
  | @refused row _ mem refuses =>
    exact .inl ⟨row, Registry.mem_fetch.mp mem, readRow_eq_error.mp refuses⟩
  | @clashed x y clash tool order first second same =>
    have hx : x ∈ db.fetch env.collation := order.subset List.mem_cons_self
    have hy : y ∈ db.fetch env.collation :=
      order.subset (List.mem_cons_of_mem _ List.mem_cons_self)
    refine .inr ⟨clash, tool, ⟨offered_iff.mpr ⟨x, hx, first⟩, offered_iff.mpr ⟨y, hy, second⟩, ?_,
      same⟩, rfl⟩
    have hnodup : ((db.fetch env.collation).map fun row ↦ (row.repository, row.workspace)).Nodup :=
      ((List.mergeSort_perm db.rows _).map _).nodup_iff.mpr db.rows_nodup
    have hpair : (x.repository, x.workspace) ≠ (y.repository, y.workspace) := by
      have hsub := hnodup.sublist (order.map fun row ↦ (row.repository, row.workspace))
      simpa using hsub
    obtain ⟨-, -, -, hrepository, hworkspace⟩ := readRow_eq_some.mp first
    obtain ⟨-, -, -, hrepository', hworkspace'⟩ := readRow_eq_some.mp second
    rwa [hrepository, hworkspace, hrepository', hworkspace']

/-- Two tools that clash are never listed. -/
theorem Clash.raises {clash : Tool} (h : Clash env db principal clash tool) :
    ∃ e, catalogue env db principal = .error e := by
  obtain ⟨hclash, htool, hne, hname⟩ := h
  cases hcatalogue : catalogue env db principal with
  | error e => exact ⟨e, rfl⟩
  | ok found =>
    have hroutes := routes_catalogue hcatalogue
    obtain ⟨name, hmem⟩ := (hroutes.exact clash).mpr hclash
    obtain ⟨name', hmem'⟩ := (hroutes.exact tool).mpr htool
    have hkey : name = name' :=
      (hroutes.named _ hmem).trans (hname.trans (hroutes.named _ hmem').symm)
    have hsame := List.inj_on_of_nodup_map hroutes.distinct hmem hmem' hkey
    rw [(Prod.mk.inj hsame).2] at hne
    exact absurd rfl hne

/-- Nothing outside the allowed repositories counts. -/
theorem catalogue_congr {db' : Registry} (h : AgreeWithin principal db db') :
    catalogue env db principal = catalogue env db' principal := by
  have hfilter (db : Registry) : catalogue env db principal =
      loadUnique (env.readRow principal) Tool.name env.clashError []
        ((db.fetch env.collation).filter fun row ↦
          Api.allowsRepo principal (.text row.repository)) :=
    loadUnique_filter (fun row _ hrow ↦ readRow_not_allowed hrow) []
  rw [hfilter, hfilter, h.fetch_filter]

/-! ## Calls -/

/-- What `_tools_call` makes of the outcome of `run_sync`. -/
def toolResult (contentBlocks : Json → Except Exc Json) (outcome : Except Exc Json) :
    Except Exc Json :=
  match outcome with
  | .error (.api _ code message _) => .ok (toolError code message)
  | .error e => .error e
  | .ok row =>
    match contentBlocks row with
    | .error e => .error e
    | .ok blocks => .ok (.obj [(str "content", blocks), (str "isError", .bool false)])

/-- A call of a listed name runs the workspace that is listed under it. -/
theorem toolsCall_listed {found : List (Str × Tool)} (h : catalogue env db principal = .ok found)
    {name : Str} (hmem : (name, tool) ∈ found)
    (runSync : Str → Str → List (Str × Str) → Str → Except Exc Json) {mcp : Env} {rest : Backend}
    (hbackend : mcp.backend = registryBackend env db principal runSync rest)
    {params args : List (Str × Json)} (hname : Json.fieldD params (str "name") .null = .text name)
    (hargs : (Json.fieldD params (str "arguments") .null).orElse (.obj []) = .obj args)
    (trace : Audit.Trace) (log : Audit.Log) :
    toolsCall mcp principal trace params log = (toolResult rest.contentBlocks
      (runSync tool.repository tool.workspace
        (args.map fun arg ↦ (arg.1, asParam mcp.rendering arg.2)) mcpService), log) := by
  have hroutes := routes_catalogue h
  obtain ⟨hproxy, hvault⟩ := hroutes.notStatic _ hmem
  have hlookup : found.lookup name = some tool := lookup_of_mem hroutes.distinct hmem
  have hlisted : (found.map fun entry ↦ (entry.1, toolJson entry.1 entry.2)).lookup name =
      some (toolJson name tool) := by
    have hmapped : (name, toolJson name tool) ∈
        found.map fun entry ↦ (entry.1, toolJson entry.1 entry.2) :=
      List.mem_map_of_mem (f := fun entry : Str × Tool ↦ (entry.1, toolJson entry.1 entry.2)) hmem
    refine lookup_of_mem ?_ hmapped
    rw [List.map_map]
    exact hroutes.distinct
  have hcatalogue : mcp.backend.catalogue =
      .ok (found.map fun entry ↦ (entry.1, toolJson entry.1 entry.2)) := by
    rw [hbackend, registryBackend, h]
    rfl
  have hrun (submitted : List (Str × Str)) : mcp.backend.runSync name submitted =
      runSync tool.repository tool.workspace submitted mcpService := by
    rw [hbackend, registryBackend, h]
    change (match found.lookup name with
      | some tool => runSync tool.repository tool.workspace submitted mcpService
      | none => throw (Exc.raised .keyError (env.display.reprText name))) = _
    rw [hlookup]
  have hblocks : mcp.backend.contentBlocks = rest.contentBlocks := by
    rw [hbackend]
    rfl
  have hnotVault : vaultToolNames.contains name = false := by
    rw [Bool.eq_false_iff, Ne, List.contains_iff_mem]
    exact hvault
  rw [toolsCall, hname]
  dsimp only
  rw [hargs]
  dsimp only
  rw [if_neg hproxy, hnotVault, if_neg Bool.false_ne_true, workspaceCall, hcatalogue]
  dsimp only
  rw [hlisted, if_neg (Option.some_ne_none _), hrun, hblocks]
  rfl

end Listing

/-- The catalogue sees nothing outside the allowed repositories.  Where it is built it routes, and a
call of a listed name runs the workspace listed under it; where it is not, an allowed manifest was
refused or two of the tools clash, and where two clash it is not. -/
theorem catalogue_routes (env : CatalogueEnv) (principal : Principal) :
    (∀ db db', AgreeWithin principal db db' →
      catalogue env db principal = catalogue env db' principal) ∧
    (∀ db found, catalogue env db principal = .ok found → Routes env db principal found ∧
      ∀ name tool, (name, tool) ∈ found → ∀ runSync mcp rest params args trace log,
        mcp.backend = registryBackend env db principal runSync rest →
        Json.fieldD params (str "name") .null = .text name →
        (Json.fieldD params (str "arguments") .null).orElse (.obj []) = .obj args →
        toolsCall mcp principal trace params log = (toolResult rest.contentBlocks
          (runSync tool.repository tool.workspace
            (args.map fun arg ↦ (arg.1, asParam mcp.rendering arg.2)) mcpService), log)) ∧
    (∀ db e, catalogue env db principal = .error e →
      (∃ row ∈ db.rows, Api.allowsRepo principal (.text row.repository) = true ∧
        env.readManifest row.manifest = .error e) ∨
      ∃ clash tool, Clash env db principal clash tool ∧ e = env.clashError clash tool) ∧
    ∀ db clash tool, Clash env db principal clash tool →
      ∃ e, catalogue env db principal = .error e := by
  refine ⟨fun db db' h ↦ catalogue_congr h, fun db found h ↦ ⟨routes_catalogue h, ?_⟩,
    fun db e h ↦ clash_of_catalogue h, fun db clash tool h ↦ h.raises⟩
  intro name tool hmem runSync mcp rest params args trace log hbackend hname hargs
  exact toolsCall_listed h hmem runSync hbackend hname hargs trace log

/-! ## Two repositories -/

def codePointOrder : Collation where
  le a b := decide (a ≤ b)
  total a b := by simpa using le_total a b
  trans a b c hab hbc := decide_eq_true (le_trans (of_decide_eq_true hab) (of_decide_eq_true hbc))
  antisymm a b hab hba := le_antisymm (of_decide_eq_true hab) (of_decide_eq_true hba)

def streamingManifest : ToolManifest where
  parameters := []
  services := [mcpService]
  accepted := nofun
  distinct := .nil

/-- What `model_validate` raises for a document that is no object. -/
def manifestRefused : Exc := .raised .validationError (str "Input should be an object")

/-- An empty object stands for a manifest that asks for the MCP service. -/
def streamingEnv : CatalogueEnv where
  validate document := match document with
    | .obj [] => .ok streamingManifest
    | _ => .error manifestRefused
  depth := 10
  display := ⟨fun _ ↦ [], fun _ ↦ false⟩
  collation := codePointOrder

def twoRepositories (workspaces : List WorkspaceRow)
    (h : (workspaces.map fun w ↦ (w.repositoryId, w.name)).Nodup) : Registry where
  repositories := [⟨1, str "SCIMAC"⟩, ⟨2, str "HR"⟩]
  workspaces := workspaces
  repositoryIds := by decide
  repositoryNames := by decide
  workspaceNames := h

/-- One workspace that the caller is allowed. -/
def salesRegistry : Registry := twoRepositories [⟨1, str "sales", str "\x7b\x7d"⟩] (by decide)

/-- The same, and one that it is not allowed, whose manifest is a list. -/
def payrollRegistry : Registry :=
  twoRepositories [⟨1, str "sales", str "\x7b\x7d"⟩, ⟨2, str "payroll", str "[]"⟩] (by decide)

/-- One workspace that the caller is allowed, whose manifest is a list. -/
def brokenRegistry : Registry := twoRepositories [⟨1, str "sales", str "[]"⟩] (by decide)

def scopedPrincipal : Principal := { openPrincipal with repoScope := [str "SCIMAC/*"] }

def salesTool : Tool := ⟨str "SCIMAC", str "sales", streamingManifest⟩

theorem catalogue_salesRegistry : catalogue streamingEnv salesRegistry scopedPrincipal =
    .ok [(str "SCIMAC__sales", salesTool)] := by
  have hrows : salesRegistry.rows = [⟨str "SCIMAC", str "sales", str "\x7b\x7d"⟩] := rfl
  rw [catalogue, Registry.fetch, hrows, List.mergeSort_singleton]
  rfl

theorem catalogue_brokenRegistry : catalogue streamingEnv brokenRegistry scopedPrincipal =
    .error manifestRefused := by
  have hrows : brokenRegistry.rows = [⟨str "SCIMAC", str "sales", str "[]"⟩] := rfl
  rw [catalogue, Registry.fetch, hrows, List.mergeSort_singleton]
  rfl

theorem agreeWithin_payroll : AgreeWithin scopedPrincipal salesRegistry payrollRegistry := by
  intro row hallowed
  have hsales : salesRegistry.rows = [⟨str "SCIMAC", str "sales", str "\x7b\x7d"⟩] := rfl
  have hpayroll : payrollRegistry.rows =
      [⟨str "SCIMAC", str "sales", str "\x7b\x7d"⟩, ⟨str "HR", str "payroll", str "[]"⟩] := rfl
  rw [hsales, hpayroll, List.mem_singleton, List.mem_cons, List.mem_singleton]
  refine ⟨.inl, fun h ↦ h.resolve_right fun hrow ↦ ?_⟩
  rw [hrow] at hallowed
  exact absurd hallowed (by decide)

/-- `run_sync` and the content of its answer. -/
def doneSync (_ _ : Str) (_ : List (Str × Str)) (_ : Str) : Except Exc Json := .ok (.obj [])

def salesEnv : Env :=
  { openEnv with
    backend := registryBackend streamingEnv salesRegistry scopedPrincipal doneSync
      openEnv.backend }

/-- The listed tool runs, the workspace out of scope is not seen, and the broken manifest raises. -/
theorem catalogue_routes_sales :
    catalogue streamingEnv salesRegistry scopedPrincipal =
        catalogue streamingEnv payrollRegistry scopedPrincipal ∧
      Routes streamingEnv salesRegistry scopedPrincipal [(str "SCIMAC__sales", salesTool)] ∧
      toolsCall salesEnv scopedPrincipal ⟨str "t", none⟩
          [(str "name", .text (str "SCIMAC__sales"))] ⟨[], 0⟩ =
        (.ok (.obj [(str "content", .arr []), (str "isError", .bool false)]), ⟨[], 0⟩) ∧
      ((∃ row ∈ brokenRegistry.rows,
          Api.allowsRepo scopedPrincipal (.text row.repository) = true ∧
            streamingEnv.readManifest row.manifest = .error manifestRefused) ∨
        ∃ clash tool, Clash streamingEnv brokenRegistry scopedPrincipal clash tool ∧
          manifestRefused = streamingEnv.clashError clash tool) := by
  obtain ⟨hsame, hok, herror, -⟩ := catalogue_routes streamingEnv scopedPrincipal
  obtain ⟨hroutes, hcalls⟩ := hok _ _ catalogue_salesRegistry
  refine ⟨hsame _ _ agreeWithin_payroll, hroutes, ?_, herror _ _ catalogue_brokenRegistry⟩
  exact hcalls _ salesTool List.mem_cons_self doneSync salesEnv openEnv.backend
    [(str "name", .text (str "SCIMAC__sales"))] [] ⟨str "t", none⟩ ⟨[], 0⟩ rfl rfl rfl

/-- The catalogue can raise though no two tools share a name. -/
theorem broken_manifest_not_clash :
    ¬ ∀ (env : CatalogueEnv) (db : Registry) (principal : Principal) (e : Exc),
      catalogue env db principal = .error e → ∃ clash tool, Clash env db principal clash tool := by
  intro h
  obtain ⟨clash, tool, hclash, -⟩ := h _ _ _ _ catalogue_brokenRegistry
  obtain ⟨row, hrow, -, -, hread⟩ := hclash.stored
  have hrows : brokenRegistry.rows = [⟨str "SCIMAC", str "sales", str "[]"⟩] := rfl
  rw [hrows, List.mem_singleton] at hrow
  rw [hrow] at hread
  have hrefused : streamingEnv.readManifest (str "[]") =
    .error manifestRefused := rfl
  rw [hrefused] at hread
  cases hread

end DatumSync.Mcp
