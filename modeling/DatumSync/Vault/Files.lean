import DatumSync.Vault.Listing

/-!
# Reading and writing vault files

`read` and `write` authorise the path with `check` before they touch the disk.  The disk is a
parameter: what a file holds, and how storing a text under a normalised path ends.
-/

namespace DatumSync.Vault

open Python

def maxReadBytes : ℕ := 256 * 1024

/-- The vault root: files, directories, and the outcome of storing a text. -/
structure Disk where
  load : Str → Option (List UInt8)
  store : Str → Str → Except Exc Unit
  tree : Tree

/-- `{"content": [{"type": "text", "text": ...}], "isError": False, "_meta": ...}` -/
def fileResult (text : Str) (info : List (Str × Json)) : Json :=
  .obj [(str "content", .arr [.obj [(str "type", .text (str "text")), (str "text", .text text)]]),
    (str "isError", .bool false), (str "_meta", .obj info)]

def read (disk : Disk) (scope : Option Scope) (path : Str) : Except Exc Json :=
  match check scope .read path with
  | .error e => .error e
  | .ok normalised =>
    match disk.load normalised with
    | none => .error (.api 404 (str "NOT_FOUND") (str "no such file: " ++ path) [])
    | some data =>
      let truncated := decide (maxReadBytes < data.length)
      let text := decodeUtf8 (data.take maxReadBytes)
      let notice := str "\n\n[truncated at " ++ decimal maxReadBytes ++ str " bytes]"
      .ok (fileResult (if truncated then text ++ notice else text)
        [(str "path", .text path), (str "size", .int data.length),
          (str "truncated", .bool truncated)])

def write (disk : Disk) (scope : Option Scope) (path content : Str) : Except Exc Json :=
  match check scope .write path with
  | .error e => .error e
  | .ok normalised =>
    match disk.store normalised content with
    | .error e => .error e
    | .ok () =>
      .ok (fileResult
        (str "wrote " ++ decimal content.length ++ str " bytes to " ++ path)
        [(str "path", .text path), (str "size", .int content.length)])

/-- Reading and writing answer a refused path with an `ApiError`; `list_dir` does not convert it,
so there the `VaultPathError` gets out. -/
theorem refused_path {disk : Disk} {scope : Option Scope} {path content : Str} {e : Exc}
    (h : normalise path = .error e) :
    (∃ a, read disk scope path = .error a ∧ a.isApi = true) ∧
      (∃ a, write disk scope path content = .error a ∧ a.isApi = true) ∧
      listDir scope path disk.tree = .error e ∧ e.isA .vaultPathError = true := by
  have hcheck : ∀ action, check scope action path =
      .error (.api 400 (str "INVALID_PARAMETER") e.message [(str "path", .text path)]) := by
    intro action
    rw [check, h]
  refine ⟨⟨_, by rw [read, hcheck], rfl⟩, ⟨_, by rw [write, hcheck], rfl⟩, by rw [listDir, h],
    normalise_error h⟩

end DatumSync.Vault
