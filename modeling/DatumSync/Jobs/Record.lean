import DatumSync.Errors
import DatumSync.Manifest

/-!
# Job rows and their manifests
-/

namespace DatumSync.Jobs

open Python

inductive JobStatus where
  | queued
  | running
  | complete
  | failed
  | cancelled
  deriving DecidableEq

def JobStatus.isTerminal : JobStatus → Bool
  | complete => true
  | failed => true
  | cancelled => true
  | _ => false

/-- `load_manifest_for`; `fetched` is the stored manifest of the row, if there is one, and
`validate` is `Manifest.model_validate`. -/
def loadManifestFor (depth : ℕ) (fetched : Except Exc (Option Str))
    (validate : Json → Except Exc Manifest) (repository workspace : Str) : Except Exc Manifest :=
  match fetched with
  | .error e => .error e
  | .ok none => .error (.raised .workspaceNotFound
      (str "no published workspace " ++ repository ++ str "/" ++ workspace))
  | .ok (some text) =>
    match loads depth text with
    | .error e => .error e
    | .ok document => validate document

/-- A manifest that is stored but refused is no `JobError`, unless validation raises one. -/
theorem loadManifestFor_error {depth : ℕ} {text repository workspace : Str}
    {validate : Json → Except Exc Manifest} {e : Exc}
    (hvalidate : ∀ document e, validate document = .error e → e.isA .jobError = false)
    (h : loadManifestFor depth (.ok (some text)) validate repository workspace = .error e) :
    e.isA .jobError = false := by
  unfold loadManifestFor at h
  dsimp only at h
  split at h
  · next e' hloads =>
    cases h
    unfold loads at hloads
    cases hjson : jsonLoads depth text with
    | ok document =>
      rw [hjson] at hloads
      cases hloads
    | error raised =>
      rw [hjson] at hloads
      cases hloads
      cases raised <;> rfl
  · exact hvalidate _ _ h

end DatumSync.Jobs
