import DatumSync.Python.Json

/-!
# Workspace manifests

The part of a published manifest that running a job reads: the declared outputs, the connections
the workspace asks for, and the time limit.
-/

namespace DatumSync

open Python

structure Output where
  name : Str
  type : Str
  primary : Bool := false
  deriving DecidableEq

inductive Access where
  | read
  | write
  deriving DecidableEq

structure ConnectionRef where
  name : Str
  access : Access := .read
  deriving DecidableEq

structure Manifest where
  outputs : List Output
  connections : List ConnectionRef
  timeoutSeconds : ℤ := 300
  deriving DecidableEq

/-- `{o.name: o for o in manifest.outputs}[name]` -/
def Manifest.declared (manifest : Manifest) (name : Str) : Option Output :=
  manifest.outputs.reverse.find? fun o ↦ o.name == name

end DatumSync
