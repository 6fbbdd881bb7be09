import DatumSync.Manifest
import DatumSync.Python.JsonBytes
import DatumSync.Python.Values
import DatumSync.Errors
import DatumSync.Foundation.Collect

/-!
# Loading workspaces from disk

`scan` walks the repositories, reads each workspace's `manifest.json` and `main.py` and collects what
does not load.  A file is its bytes; `Manifest.model_validate` and `ast.parse` are parameters.
-/

namespace DatumSync.Repository

open Python Foundation

/-! ## Files -/

/-- What `open` finds at a path. -/
inductive FileState where
  | missing
  | unreadable
  | content (bytes : List UInt8)
  deriving DecidableEq

/-- Strict UTF-8 is what `surrogatepass` takes, without the surrogates. -/
def decodeStrict (bytes : List UInt8) : Option Str :=
  (passFrom .start bytes).bind fun s ↦ if s.any isSurrogate then none else some s

def translateNewlines : Str → Str
  | [] => []
  | [c] => if c = cp '\r' then [cp '\n'] else [c]
  | c :: d :: rest =>
    if c = cp '\r' then
      if d = cp '\n' then cp '\n' :: translateNewlines rest
      else cp '\n' :: translateNewlines (d :: rest)
    else c :: translateNewlines (d :: rest)

def readText (file : FileState) : Except Exc Str :=
  match file with
  | .missing => .error (.raised .fileNotFoundError (str "No such file or directory"))
  | .unreadable => .error (.raised .osError (str "Permission denied"))
  | .content bytes =>
    match decodeStrict bytes with
    | none => .error (.raised .unicodeError (str "'utf-8' codec can't decode"))
    | some text => .ok (translateNewlines text)

structure WorkspaceDir where
  name : Str
  manifest : FileState
  entrypoint : FileState
  doc : FileState
  deriving DecidableEq

/-- A directory of a repository: its subdirectories. -/
structure RepositoryDir where
  name : Str
  workspaces : List WorkspaceDir
  distinct : (workspaces.map (·.name)).Nodup

/-- `REPOSITORIES_PATH` -/
structure Tree where
  root : Str
  repositories : List RepositoryDir
  distinct : (repositories.map (·.name)).Nodup

/-- A name that does not start with a dot or an underscore. -/
def isVisible (name : Str) : Bool := !startsWith name (str ".") && !startsWith name (str "_")

def visibleDirs {α : Type} (name : α → Str) (dirs : List α) : List α :=
  (dirs.filter fun dir ↦ isVisible (name dir)).mergeSort fun a b ↦ decide (name a ≤ name b)

/-- The repositories that the loops see. -/
def Tree.visible (tree : Tree) : List RepositoryDir :=
  visibleDirs RepositoryDir.name tree.repositories

/-- The workspaces that the loops see, with the names of their repositories. -/
def Tree.workspaces (tree : Tree) : List (Str × WorkspaceDir) :=
  tree.visible.flatMap fun repo ↦
    (visibleDirs WorkspaceDir.name repo.workspaces).map fun ws ↦ (repo.name, ws)

/-! ## A workspace -/

/-- `manifest.Manifest`, with the fields that publishing reads. -/
structure WorkspaceManifest extends Manifest where
  name : Str
  description : Option Str := none
  version : Str
  smokeTest : Bool := false
  deriving DecidableEq

/-- A statement at the top level of a module. -/
inductive TopLevel where
  | function (name : Str) (isAsync : Bool) (args : List Str)
  | other
  deriving DecidableEq

/-- What loading asks of other code. -/
structure Loader where
  /-- `Manifest.model_validate`; the message of a `ValidationError` is `_format_errors(e)`. -/
  validate : Json → Except Exc WorkspaceManifest
  /-- `ast.parse`; the message of a `SyntaxError` is its line and text. -/
  parse : Str → Except Exc (List TopLevel)
  display : Display
  /-- How deep `json.loads` may nest. -/
  depth : ℕ

def manifestError (message : Str) : Exc := .raised .manifestError message

def workspaceError (message : Str) : Exc := .raised .workspaceError message

def runSignature : List Str := [str "params", str "emit", str "connections"]

variable (loader : Loader)

def loadManifest (path expectedName : Str) (file : FileState) : Except Exc WorkspaceManifest := do
  let text ← recast (·.isA .fileNotFoundError)
    (fun _ ↦ manifestError (path ++ str ": no manifest.json")) (readText file)
  let raw ← recast (·.isA .jsonDecodeError)
    (fun e ↦ manifestError (path ++ str ": invalid JSON - " ++ e.message))
    (loads loader.depth text)
  let manifest ← recast (·.isA .validationError)
    (fun e ↦ manifestError (path ++ str ": " ++ e.message)) (loader.validate raw)
  if manifest.name ≠ expectedName then
    throw (manifestError (path ++ str ": manifest name " ++
      loader.display.reprText manifest.name ++ str " does not match directory name " ++
      loader.display.reprText expectedName))
  return manifest

def reprTuple (texts : List Str) : Str :=
  match texts with
  | [text] => str "(" ++ loader.display.reprText text ++ str ",)"
  | texts => str "(" ++ (str ", ").intercalate (texts.map loader.display.reprText) ++ str ")"

/-- The first function of the module that is called `run`. -/
def findRun (body : List TopLevel) : Option (Bool × List Str) :=
  body.findSome? fun node ↦ match node with
    | .function name isAsync args => if name = str "run" then some (isAsync, args) else none
    | .other => none

def checkEntrypoint (file : FileState) : Except Exc Unit := do
  let source ← recast (·.isA .fileNotFoundError) (fun _ ↦ workspaceError (str "no main.py"))
    (readText file)
  let body ← recast (·.isA .syntaxError)
    (fun e ↦ workspaceError (str "main.py: syntax error line " ++ e.message))
    (loader.parse source)
  match findRun body with
  | none => throw (workspaceError (str "main.py: no module-level `run` function"))
  | some (isAsync, args) =>
    if isAsync = false then throw (workspaceError (str "main.py: `run` must be `async def`"))
    if args ≠ runSignature then
      throw (workspaceError (str "main.py: run" ++ reprTuple loader args ++
        str " does not match run" ++ reprTuple loader runSignature))

/-- `LoadedWorkspace`; its path is the directory. -/
structure LoadedWorkspace where
  repository : Str
  dir : WorkspaceDir
  manifest : WorkspaceManifest
  deriving DecidableEq

/-- The directory's name, which is also the manifest's. -/
def LoadedWorkspace.name (ws : LoadedWorkspace) : Str := ws.dir.name

/-- `ws_path / "manifest.json"` -/
def manifestPath (root repository name : Str) : Str :=
  root ++ str "/" ++ repository ++ str "/" ++ name ++ str "/manifest.json"

def loadWorkspace (root repository : Str) (dir : WorkspaceDir) : Except Exc LoadedWorkspace := do
  let manifest ← loadManifest loader (manifestPath root repository dir.name) dir.name dir.manifest
  checkEntrypoint loader dir.entrypoint
  return { repository := repository, dir := dir, manifest := manifest }

/-- `f"{repo}/{ws}"` -/
def label (repository name : Str) : Str := repository ++ str "/" ++ name

/-- `except (ManifestError, WorkspaceError)` -/
def isCollected (e : Exc) : Bool := e.isA .manifestError || e.isA .workspaceError

/-- The loop of `scan`: what loads, and what does not with its message. -/
def scan (root : Str) (entries : List (Str × WorkspaceDir)) :
    Except Exc (List LoadedWorkspace × List (Str × Str)) := do
  let (loaded, refused) ←
    collect (fun entry ↦ loadWorkspace loader root entry.1 entry.2) isCollected entries
  return (loaded, refused.map fun (entry, e) ↦ (label entry.1 entry.2.name, e.message))

end DatumSync.Repository
