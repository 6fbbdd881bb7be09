import DatumSync.Repository.Gate

/-!
# Synchronising the tables with the disk

`sync` scans the repositories, finds what is registered and no longer on disk, runs the gate over what
loaded, and writes the rest in one transaction.
-/

namespace DatumSync.Repository

open Python Services Foundation

/-! ## The database -/

/-- A row of `workspaces`, the repository and the name apart. -/
structure WorkspaceRow where
  description : Option Str
  version : Str
  manifest : WorkspaceManifest
  publishedAt : ℕ
  publishedBy : Str
  deriving DecidableEq

structure Database where
  /-- The paths of the repositories, by name. -/
  repositories : Table Str Str
  /-- The published workspaces, by repository and name. -/
  workspaces : Table (Str × Str) WorkspaceRow
  hosted : Hosted

structure Statements where
  repository : Str → Option Exc
  workspace : LoadedWorkspace → Option Exc
  prune : Str × Str → Option Exc

structure SyncCall where
  tree : Tree
  loader : Loader
  outcomes : GateOutcomes
  statements : Statements
  publisher : Str
  /-- The time of the transaction. -/
  time : ℕ
  dryRun : Bool
  prune : Bool

structure SyncReport where
  loaded : List LoadedWorkspace
  errors : List (Str × Str)
  stale : List (Str × Str)
  publisher : Str

namespace SyncCall

variable (call : SyncCall)

/-! ## The passes -/

def onDisk : List (Str × Str) := call.tree.workspaces.map fun entry ↦ (entry.1, entry.2.name)

def findStale (db : Database) : List (Str × Str) :=
  db.workspaces.keys.filter (· ∉ call.onDisk)

/-- The gate as `_apply_gate` runs it. -/
def gateOf (hosted : Hosted) (ws : LoadedWorkspace) : Except Exc Unit :=
  gate call.loader.display call.outcomes hosted (!call.dryRun) ws

/-- One turn of the loop of `_apply_gate`. -/
def passOne (hosted : Hosted) (ws : LoadedWorkspace) : Except Exc LoadedWorkspace := do
  call.gateOf hosted ws
  return ws

/-- The loop of `_apply_gate`: what passes, and what does not with its message. -/
def applyGate (hosted : Hosted) (loaded : List LoadedWorkspace) :
    Except Exc (List LoadedWorkspace × List (Str × Str)) := do
  let (passed, refused) ← collect (call.passOne hosted) isPublishError loaded
  return (passed, refused.map fun (ws, e) ↦ (label ws.repository ws.name, e.message))

def row (ws : LoadedWorkspace) : WorkspaceRow where
  description := ws.manifest.description
  version := ws.manifest.version
  manifest := ws.manifest
  publishedAt := call.time
  publishedBy := call.publisher

def writeRepository (repo : RepositoryDir) (db : Database) : Database :=
  { db with
    repositories := db.repositories.insert repo.name (call.tree.root ++ str "/" ++ repo.name) }

def upsertRepositories : List RepositoryDir → Database → Except Exc Database :=
  runEach (fun repo ↦ call.statements.repository repo.name) call.writeRepository

def writeWorkspace (ws : LoadedWorkspace) (db : Database) : Database :=
  { db with workspaces := db.workspaces.insert (ws.repository, ws.name) (call.row ws) }

def upsertWorkspaces : List LoadedWorkspace → Database → Except Exc Database :=
  runEach call.statements.workspace call.writeWorkspace

/-- The two statements for a stale workspace. -/
def deleteStale (key : Str × Str) (db : Database) : Database :=
  { db with
    workspaces := db.workspaces.erase key
    hosted := db.hosted.deregister key.1 key.2 }

/-- The loop over the stale workspaces. -/
def pruneStale : List (Str × Str) → Database → Except Exc Database :=
  runEach call.statements.prune deleteStale

def transaction (passed : List LoadedWorkspace) (stale : List (Str × Str)) (db : Database) :
    Except Exc Database := do
  let db ← call.upsertRepositories call.tree.visible db
  let db ← call.upsertWorkspaces passed db
  if call.prune then call.pruneStale stale db else return db

/-- `sync`: the report, and the database it leaves. -/
def sync (db : Database) : Except Exc SyncReport × Database :=
  match scan call.loader call.tree.root call.tree.workspaces with
  | .error e => (.error e, db)
  | .ok (loaded, loadErrors) =>
    let stale := call.findStale db
    match call.applyGate db.hosted loaded with
    | .error e => (.error e, db)
    | .ok (passed, gateErrors) =>
      let report : SyncReport := ⟨passed, loadErrors ++ gateErrors, stale, call.publisher⟩
      if call.dryRun then (.ok report, db)
      else match call.transaction passed stale db with
        | .error e => (.error e, db)
        | .ok db => (.ok report, db)

end SyncCall

end DatumSync.Repository
