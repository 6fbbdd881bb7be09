import DatumSync.Vault.Scope

/-!
# Who is calling
-/

namespace DatumSync

open Python

/-- `Principal.source`: what the caller has presented. -/
inductive Source where
  | token
  | oauth
  | agent
  | session
  deriving DecidableEq

structure Principal where
  accountId : ℤ
  name : Str
  maxTier : ℤ
  repoScope : List Str
  isAdmin : Bool
  source : Source
  vaultScope : Option Vault.Scope
  rateLimitPerMin : Option ℤ
  clientId : Option Str := none
  scope : Option Str := none
  agentId : Option ℤ := none
  agentName : Option Str := none
  proxyGrants : Option (List Str) := none

def Principal.hasVaultScope (principal : Principal) : Bool :=
  match principal.vaultScope with
  | none => false
  | some scope => !scope.fields.isEmpty

end DatumSync
