import DatumSync.Python.JsonLoads

/-!
# The exceptions of the service

A raised exception is an `ApiError` (status, code, message and detail), an `RpcError` of the MCP
endpoint, or an instance of one of the other classes the code raises or names in an `except` clause.
-/

namespace DatumSync

open Python

/-- The exception classes named in `except` clauses, and the families they do not name. -/
inductive ExcClass where
  | jobError
  | workspaceNotFound
  | uploadError
  | connectionStoreError
  | cryptoError
  | serviceError
  | automationError
  | manifestError
  | parameterError
  | workspaceError
  | publishError
  | vaultPathError
  | vaultScopeError
  | scheduleError
  | zoneInfoNotFoundError
  | valueError
  | validationError
  | unicodeError
  | jsonDecodeError
  | syntaxError
  | keyError
  | typeError
  | attributeError
  | recursionError
  | osError
  | fileNotFoundError
  | databaseError
  | otherError
  deriving DecidableEq

/-- `issubclass(c, d)` -/
def ExcClass.isSubclass (c d : ExcClass) : Bool :=
  c == d || match c, d with
    | .workspaceNotFound, .jobError => true
    | .vaultPathError, .valueError => true
    | .vaultScopeError, .valueError => true
    | .validationError, .valueError => true
    | .unicodeError, .valueError => true
    | .jsonDecodeError, .valueError => true
    | .fileNotFoundError, .osError => true
    | .zoneInfoNotFoundError, .keyError => true
    | _, _ => false

inductive Exc where
  | api (status : ℕ) (code message : Str) (detail : List (Str × Json))
  | rpc (code : ℤ) (message : Str) (data : Option Json)
  | raised (cls : ExcClass) (message : Str)
  deriving DecidableEq

namespace Exc

/-- `isinstance(e, cls)` -/
def isA (e : Exc) (cls : ExcClass) : Bool :=
  match e with
  | raised c _ => c.isSubclass cls
  | _ => false

/-- `isinstance(e, ApiError)` -/
def isApi : Exc → Bool
  | api .. => true
  | _ => false

/-- `str(e)` -/
def message : Exc → Str
  | api _ _ m _ => m
  | rpc _ m _ => m
  | raised _ m => m

end Exc

/-- Both parts of what did not raise. -/
theorem bind_ok {α β : Type} {x : Except Exc α} {f : α → Except Exc β} {b : β}
    (h : x >>= f = .ok b) : ∃ a, x = .ok a ∧ f a = .ok b := by
  cases x with
  | error e => cases h
  | ok a => exact ⟨a, rfl, h⟩

def loadException : LoadError → Exc
  | .jsonDecodeError => .raised .jsonDecodeError (str "Expecting value")
  | .digitLimit => .raised .valueError (str "Exceeds the limit for integer string conversion")
  | .recursionLimit => .raised .recursionError (str "maximum recursion depth exceeded")

def loads (depth : ℕ) (text : Str) : Except Exc Json :=
  (jsonLoads depth text).mapError loadException

end DatumSync
