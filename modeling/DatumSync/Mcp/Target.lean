import DatumSync.Vault.Path

/-!
# Governance paths and call targets

Every call of the endpoint is logged with a target, and a vault write is flagged when its target
is a governance path.  The target of a vault call is the `path` argument as the caller wrote it,
so the flag is computed on the written path and not on the one `normalise` makes of it.
-/

namespace DatumSync.Mcp

open Python

def governancePaths : List Str := [str "SOUL.md"]

def governancePrefixes : List Str := [str "skills/", str "hooks/"]

/-- The classification of a path that is a nonempty text. -/
def governancePath (path : Str) : Bool :=
  governancePaths.contains path || governancePrefixes.any (startsWith path)

/-- `_is_governance`.  A target that is no text fails the set lookup or has no `startswith`. -/
def isGovernance (target : Json) : Except Exc Bool :=
  if target.truthy then
    match target with
    | .text path => .ok (governancePath path)
    | .arr _ => .error (.raised .typeError (str "unhashable type: 'list'"))
    | .obj _ => .error (.raised .typeError (str "unhashable type: 'dict'"))
    | _ => .error (.raised .attributeError (str "object has no attribute 'startswith'"))
  else .ok false

def vaultToolNames : List Str := [str "vault_read", str "vault_write", str "vault_list"]

def proxyToolName : Str := str "proxy_request"

/-- `name in _VAULT_TOOL_NAMES` for a name that can be hashed. -/
def isVaultTool (toolName : Json) : Bool := vaultToolNames.any toolName.eqText

/-- `args.get`, where `args` need not be a dict. -/
def argumentsOf (args : Json) : Except Exc (List (Str × Json)) :=
  match args with
  | .obj fields => .ok fields
  | _ => .error (.raised .attributeError (str "object has no attribute 'get'"))

/-- `_call_target` of a known method; `strOf` is `str`. -/
def callTarget (strOf : Json → Str) (method : Str) (toolName : Json) (params : List (Str × Json)) :
    Except Exc Json :=
  if method ≠ str "tools/call" ∨ toolName = .null then .ok .null
  else
    let args := (Json.fieldD params (str "arguments") .null).orElse (.obj [])
    if !toolName.hashable then .error (.raised .typeError (str "unhashable type"))
    else if isVaultTool toolName then
      match argumentsOf args with
      | .error e => .error e
      | .ok fields => .ok (Json.fieldD fields (str "path") .null)
    else if toolName.eqText proxyToolName then
      match argumentsOf args with
      | .error e => .error e
      | .ok fields =>
        let connection := Json.fieldD fields (str "connection") (.text [])
        let verb := Json.fieldD fields (str "method") (.text [])
        let path := Json.fieldD fields (str "path") (.text [])
        if connection.truthy then
          .ok (.text (strOf connection ++ str ":" ++ strOf verb ++ str ":" ++ strOf path))
        else .ok .null
    else .ok toolName

def targetKind (method : Str) (toolName : Json) : Option Str :=
  if method ≠ str "tools/call" ∨ toolName = .null then none
  else if isVaultTool toolName then some (str "vault_path")
  else if toolName.eqText proxyToolName then some (str "connection")
  else some (str "tool")

def verb (method : Str) : Str :=
  str "mcp." ++ method.map fun c ↦ if c = cp '/' then cp '.' else c

/-! ## The flag of a written path -/

/-- The spellings of a path that are classified as the path itself is: nothing in front of a
governance file, nothing behind `SOUL.md`, and no slash behind the name of a directory. -/
structure SpeltPlainly (raw n : Str) : Prop where
  soul : n ∈ governancePaths → raw = n
  inside : (∃ p ∈ governancePrefixes, p <+: n) → startsWithSpace raw = false
  directory : ∀ p ∈ governancePrefixes, n ++ [Vault.slash] = p → ¬ p <+: raw

theorem governancePath_iff {path : Str} : governancePath path = true ↔
    path ∈ governancePaths ∨ ∃ p ∈ governancePrefixes, p <+: path := by
  rw [governancePath, Bool.or_eq_true, List.contains_iff_mem, List.any_eq_true]
  simp only [startsWith_iff]

/-- A text that a governance name starts has no whitespace in front. -/
theorem not_space_of_startsWith {p raw : Str} (hp : p ∈ governancePrefixes) (h : p <+: raw) :
    startsWithSpace raw = false := by
  have hprefixes : ∀ p ∈ governancePrefixes, p ≠ [] ∧ startsWithSpace p = false := by decide
  obtain ⟨rest, rfl⟩ := h
  rw [startsWithSpace_append rest (hprefixes p hp).1]
  exact (hprefixes p hp).2

/-- A written path that starts like the inside of a governance directory has a normal form that
does, or is the directory itself with a slash behind it. -/
theorem prefix_or_directory {raw n p : Str} (hn : Vault.normalise raw = .ok n)
    (hp : p ∈ governancePrefixes) (h : p <+: raw) : p <+: n ∨ n ++ [Vault.slash] = p := by
  have hinside : ∀ p ∈ governancePrefixes,
      (p.dropLast.all fun c ↦ c != Vault.slash && !isSpace c) = true := by decide
  have hlast : ∀ p ∈ governancePrefixes, p = p.dropLast ++ [Vault.slash] := by decide
  have hpre := Vault.prefix_of_no_front hn (not_space_of_startsWith hp h)
  rcases List.prefix_or_prefix_of_prefix h hpre with h' | h'
  · exact .inl h'
  · rw [hlast p hp, List.prefix_concat_iff] at h'
    rcases h' with rfl | ⟨rest, hrest⟩
    · exact .inl (hlast p hp ▸ List.prefix_rfl)
    · cases rest with
      | nil => exact .inr (by rw [hlast p hp, ← hrest, List.append_nil])
      | cons c rest =>
        have hc : c ∈ p.dropLast := hrest ▸ List.mem_append_right n List.mem_cons_self
        have hnext : n ++ [c] <+: raw := by
          refine List.IsPrefix.trans ⟨rest, ?_⟩ ((List.dropLast_prefix p).trans h)
          rw [← hrest, List.append_assoc, List.singleton_append]
        have hplain := List.all_eq_true.mp (hinside p hp) c hc
        rw [Bool.and_eq_true, bne_iff_ne, Bool.not_eq_true'] at hplain
        rcases Vault.next_of_prefix hn (not_space_of_startsWith hp h) hnext with hslash | hspace
        · exact absurd hslash hplain.1
        · exact absurd (hplain.2.symm.trans hspace) Bool.false_ne_true

/-- The flag of the written path is the flag of the normalised one exactly for plain spellings. -/
theorem governancePath_eq_iff {raw n : Str} (hn : Vault.normalise raw = .ok n) :
    governancePath raw = governancePath n ↔ SpeltPlainly raw n := by
  have hpaths : ∀ q ∈ governancePaths, Vault.normalise q = .ok q := by decide +kernel
  have hpathsSpace : ∀ q ∈ governancePaths, startsWithSpace q = false := by decide
  have hpathsPrefixes : ∀ q ∈ governancePaths, ∀ p ∈ governancePrefixes,
      ¬ q <+: p ∧ ¬ p <+: q := by decide
  rw [Bool.eq_iff_iff, governancePath_iff, governancePath_iff]
  constructor
  · intro heq
    refine ⟨fun hsoul ↦ ?_, fun hinside ↦ ?_, fun p hp hdir hraw ↦ ?_⟩
    · rcases heq.mpr (.inl hsoul) with hraw | ⟨p, hp, hraw⟩
      · have hsame : Except.ok raw = Except.ok n := (hpaths raw hraw).symm.trans hn
        exact Except.ok.inj hsame
      · have hpre := Vault.prefix_of_no_front hn (not_space_of_startsWith hp hraw)
        rcases List.prefix_or_prefix_of_prefix hpre hraw with h | h
        · exact absurd h (hpathsPrefixes n hsoul p hp).1
        · exact absurd h (hpathsPrefixes n hsoul p hp).2
    · rcases heq.mpr (.inr hinside) with hraw | ⟨p, hp, hraw⟩
      · exact hpathsSpace raw hraw
      · exact not_space_of_startsWith hp hraw
    · have hshort : ∀ p ∈ governancePrefixes, p.dropLast ∉ governancePaths ∧
          ∀ q ∈ governancePrefixes, ¬ q <+: p.dropLast := by decide
      have hdrop : n = p.dropLast := by rw [← hdir, List.dropLast_concat]
      rcases heq.mp (.inr ⟨p, hp, hraw⟩) with h | ⟨q, hq, h⟩
      · exact (hshort p hp).1 (hdrop ▸ h)
      · exact (hshort p hp).2 q hq (hdrop ▸ h)
  · intro hplain
    constructor
    · rintro (hraw | ⟨p, hp, hraw⟩)
      · have hsame : Except.ok raw = Except.ok n := (hpaths raw hraw).symm.trans hn
        exact .inl (Except.ok.inj hsame ▸ hraw)
      · rcases prefix_or_directory hn hp hraw with h | h
        · exact .inr ⟨p, hp, h⟩
        · exact absurd hraw (hplain.directory p hp h)
    · rintro (hsoul | ⟨p, hp, hpre⟩)
      · exact .inl (hplain.soul hsoul ▸ hsoul)
      · exact .inr ⟨p, hp, hpre.trans
          (Vault.prefix_of_no_front hn (hplain.inside ⟨p, hp, hpre⟩))⟩

end DatumSync.Mcp
