import DatumSync.Errors
import DatumSync.Foundation.Replay
import DatumSync.Python.Text

/-!
# Landing artifacts

The child's `_store` puts the content of an artifact, or a copy of what is at its path, into the
artifact directory of the job.  The paths lead outside that directory, where both attempts at a job
find the same.
-/

namespace DatumSync.Worker

open Python Foundation

inductive ArtifactValue where
  | json (v : Json)
  | bytes (data : List UInt8)
  deriving DecidableEq

/-- What `run` returns in its list: a dict, or a value without `get`. -/
inductive Artifact where
  | dict (fields : List (Str × ArtifactValue))
  | other
  deriving DecidableEq

/-- The files and directories below a directory, by their paths from it; a directory has no bytes. -/
abbrev DirTree := List (Str × Option (List UInt8))

/-- What is under a name in the artifact directory. -/
inductive Entry where
  | file (bytes : List UInt8)
  | directory (tree : DirTree)
  deriving DecidableEq

def Entry.isDirectory : Entry → Bool
  | file _ => false
  | directory _ => true

abbrev ArtifactDir := Str → Option Entry

/-- The directory that `mkdir` makes. -/
def noArtifacts : ArtifactDir := fun _ ↦ none

/-- What is at the path of an artifact. -/
inductive Source where
  /-- A directory: its copy, or what copying it raises. -/
  | directory (copied : Except Exc DirTree)
  /-- A file: its bytes, or what reading it raises. -/
  | file (read : Except Exc (List UInt8))
  | absent
  | failing (e : Exc)

/-- What `_store` asks of the rest of the file system. -/
structure ChildOutside where
  source : Str → Source
  /-- What making a file or directory of a name raises. -/
  creates : Str → Option Exc
  reprOf : Artifact → Str
  reprText : Str → Str

/-- An entry of the list that the child sends. -/
structure StoredDescriptor where
  name : Str
  type : ArtifactValue
  primary : Bool
  file : Str
  dir : Bool
  size : ℕ
  deriving DecidableEq

def runtimeError (message : Str) : Exc := .raised .otherError message

def typeName : Json → Str
  | .null => str "NoneType"
  | .bool _ => str "bool"
  | .int _ => str "int"
  | .float _ => str "float"
  | .text _ => str "str"
  | .arr _ => str "list"
  | .obj _ => str "dict"

def ArtifactValue.truthy : ArtifactValue → Bool
  | json v => v.truthy
  | bytes data => !data.isEmpty

variable (outside : ChildOutside)

/-! ## `_store` -/

/-- `artifact.get("name")` and its checks; what is no text has no `in` or no `startswith`. -/
def storeName (artifact : Artifact) (fields : List (Str × ArtifactValue)) : Except Exc Str :=
  match fields.lookup (str "name") with
  | none => .error (runtimeError (str "artifact has no name: " ++ outside.reprOf artifact))
  | some name =>
    if name.truthy = false then
      .error (runtimeError (str "artifact has no name: " ++ outside.reprOf artifact))
    else match name with
      | .json (.text name) =>
        if cp '/' ∈ name ∨ startsWith name (str ".") = true then
          .error (runtimeError (str "unsafe artifact name: " ++ outside.reprText name))
        else .ok name
      | _ => .error (.raised .typeError (str "the name is not a str"))

/-- Opening a file of a name for writing. -/
def openFile (name : Str) (held : Option Entry) : Except Exc Unit :=
  match outside.creates name with
  | some e => .error e
  | none =>
    if held.any Entry.isDirectory then .error (.raised .osError (str "Is a directory")) else .ok ()

/-- `dest.write_text` or `dest.write_bytes` -/
def writeContent (name : Str) (held : Option Entry) (content : ArtifactValue) :
    Except Exc Entry := do
  match content with
  | .json (.text s) =>
    openFile outside name held
    match encodeUtf8 s with
    | some bytes => return .file bytes
    | none => throw (.raised .unicodeError (str "surrogates not allowed"))
  | .bytes bytes =>
    openFile outside name held
    return .file bytes
  | .json v => throw (runtimeError (str "artifact " ++ outside.reprText name ++
      str " content must be str or bytes, got " ++ typeName v))

/-- `shutil.copytree`, which makes the directory itself, or `shutil.copyfile`. -/
def copyPath (name : Str) (held : Option Entry) (path : ArtifactValue) : Except Exc Entry := do
  match path with
  | .json (.text path) =>
    match outside.source path with
    | .directory copied =>
      match outside.creates name with
      | some e => throw e
      | none =>
        if held.isSome then throw (.raised .osError (str "File exists"))
        return .directory (← copied)
    | .file read =>
      let bytes ← read
      openFile outside name held
      return .file bytes
    | .absent => throw (runtimeError (str "artifact " ++ outside.reprText name ++
        str " path does not exist: " ++ path))
    | .failing e => throw e
  | _ => throw (.raised .typeError (str "expected str, bytes or os.PathLike object"))

/-- `_tree_size` of a directory, `st_size` of a file. -/
def Entry.size : Entry → ℕ
  | file bytes => bytes.length
  | directory tree => (tree.map fun entry ↦ (entry.2.getD []).length).sum

def describe (name : Str) (fields : List (Str × ArtifactValue)) (entry : Entry) :
    StoredDescriptor where
  name := name
  type := (fields.lookup (str "type")).getD (.json (.text (str "application/octet-stream")))
  primary := ((fields.lookup (str "primary")).getD (.json (.bool false))).truthy
  file := name
  dir := entry.isDirectory
  size := entry.size

/-- The entry that an artifact puts in the place of what is held under its name. -/
def landing (name : Str) (fields : List (Str × ArtifactValue)) (held : Option Entry) :
    Except Exc Entry :=
  match fields.lookup (str "content"), fields.lookup (str "path") with
  | some content, none => writeContent outside name held content
  | none, some path => copyPath outside name held path
  | _, _ => .error (runtimeError (str "artifact " ++ outside.reprText name ++
      str " needs exactly one of content/path"))

def store (dir : ArtifactDir) (artifact : Artifact) :
    Except Exc (StoredDescriptor × ArtifactDir) := do
  match artifact with
  | .other => throw (.raised .attributeError (str "object has no attribute 'get'"))
  | .dict fields =>
    let name ← storeName outside artifact fields
    let entry ← landing outside name fields (dir name)
    return (describe name fields entry, Function.update dir name (some entry))

/-- `[_store(a, artifact_dir) for a in artifacts]` -/
def storeAll : ArtifactDir → List Artifact → Except Exc (List StoredDescriptor × ArtifactDir)
  | dir, [] => .ok ([], dir)
  | dir, artifact :: rest => do
    let (stored, dir) ← store outside dir artifact
    let (others, dir) ← storeAll dir rest
    return (stored :: others, dir)

end DatumSync.Worker
