import DatumSync.Errors

/-!
# Vault paths

`normalise` turns the path a caller wrote into the vault-relative path the scopes are checked
against, or refuses it.  Traversal is refused rather than resolved, so all it ever removes is the
whitespace around the path and the slashes at its end.  The lemmas below say which texts it
accepts and how the written path and its normal form differ.
-/

namespace DatumSync.Vault

open Python

def maxPath : ℕ := 1024

def slash : CodePoint := cp '/'

def pathError (message : String) : Exc := .raised .vaultPathError (str message)

/-- The segment loop of `normalise`: the first refused segment decides the error. -/
def checkSegments : List Str → Except Exc Unit
  | [] => .ok ()
  | segment :: rest =>
    if segment = str ".." then .error (pathError "path contains a parent-directory segment")
    else if segment = str "." then .error (pathError "path contains a current-directory segment")
    else if segment = [] then .error (pathError "path contains an empty segment")
    else checkSegments rest

def normalise (path : Str) : Except Exc Str :=
  let path := strip path
  if path = [] then .error (pathError "path is empty")
  else if maxPath < path.length then .error (pathError "path is longer than 1024 characters")
  else if 0 ∈ path then .error (pathError "path contains a null byte")
  else if cp '\\' ∈ path then .error (pathError "path contains a backslash")
  else if startsWith path [slash] then
    .error (pathError "path must be relative to the vault root")
  else
    let path := rstripChar slash path
    let segments := split slash path
    match checkSegments segments with
    | .error e => .error e
    | .ok () => .ok (join slash segments)

/-- A segment `normalise` lets through. -/
def SegmentOk (segment : Str) : Prop :=
  segment ≠ str ".." ∧ segment ≠ str "." ∧ segment ≠ []

structure Accepted (raw : Str) : Prop where
  nonempty : strip raw ≠ []
  short : (strip raw).length ≤ maxPath
  noNull : 0 ∉ strip raw
  noBackslash : cp '\\' ∉ strip raw
  relative : startsWith (strip raw) [slash] = false
  segments : ∀ segment ∈ split slash (rstripChar slash (strip raw)), SegmentOk segment

theorem checkSegments_eq_ok {segments : List Str} :
    checkSegments segments = .ok () ↔ ∀ segment ∈ segments, SegmentOk segment := by
  induction segments with
  | nil => simp [checkSegments]
  | cons segment rest ih =>
    rw [List.forall_mem_cons, checkSegments]
    split_ifs with h1 h2 h3
    · simp [SegmentOk, h1]
    · simp [SegmentOk, h2]
    · simp [SegmentOk, h3]
    · rw [ih]
      exact (and_iff_right ⟨h1, h2, h3⟩).symm

theorem checkSegments_error {segments : List Str} {e : Exc}
    (h : checkSegments segments = .error e) : e.isA .vaultPathError = true := by
  induction segments with
  | nil => exact nomatch h
  | cons segment rest ih =>
    rw [checkSegments] at h
    split_ifs at h
    · cases h; rfl
    · cases h; rfl
    · cases h; rfl
    · exact ih h

/-- Every refusal of `normalise` is a `VaultPathError`. -/
theorem normalise_error {raw : Str} {e : Exc} (h : normalise raw = .error e) :
    e.isA .vaultPathError = true := by
  unfold normalise at h
  dsimp only at h
  split_ifs at h
  · cases h; rfl
  · cases h; rfl
  · cases h; rfl
  · cases h; rfl
  · cases h; rfl
  · split at h
    · next e' hcheck =>
      cases h
      exact checkSegments_error hcheck
    · cases h

/-- The normal form is the stripped text without its trailing slashes. -/
theorem normalise_eq_ok {raw n : Str} :
    normalise raw = .ok n ↔ Accepted raw ∧ n = rstripChar slash (strip raw) := by
  constructor
  · intro h
    unfold normalise at h
    dsimp only at h
    split_ifs at h with h1 h2 h3 h4 h5
    split at h
    · cases h
    · next hcheck =>
      rw [join_split, Except.ok.injEq] at h
      exact ⟨⟨h1, by omega, h3, h4, by simpa using h5, checkSegments_eq_ok.mp hcheck⟩, h.symm⟩
  · rintro ⟨hacc, rfl⟩
    have hcheck := checkSegments_eq_ok.mpr hacc.segments
    unfold normalise
    dsimp only
    rw [if_neg hacc.nonempty, if_neg (Nat.not_lt.mpr hacc.short), if_neg hacc.noNull,
      if_neg hacc.noBackslash, if_neg (by simp [hacc.relative]), hcheck, join_split]

theorem segment_ne_nil {raw n segment : Str} (h : normalise raw = .ok n)
    (hmem : segment ∈ split slash n) : segment ≠ [] := by
  obtain ⟨hacc, rfl⟩ := normalise_eq_ok.mp h
  exact (hacc.segments segment hmem).2.2

theorem normalise_ne_nil {raw n : Str} (h : normalise raw = .ok n) : n ≠ [] := by
  intro hnil
  have hmem : ([] : Str) ∈ split slash n := by
    rw [hnil, split, List.splitOn_nil]
    exact List.mem_singleton_self _
  exact segment_ne_nil h hmem rfl

/-- What `normalise` removes: whitespace in front, and slashes and whitespace behind. -/
theorem exists_affixes {raw n : Str} (h : normalise raw = .ok n) :
    ∃ front slashes back, raw = front ++ n ++ slashes ++ back ∧ (∀ c ∈ front, isSpace c = true) ∧
      (∀ c ∈ slashes, c = slash) ∧ (∀ c ∈ back, isSpace c = true) := by
  obtain ⟨_, rfl⟩ := normalise_eq_ok.mp h
  refine ⟨raw.takeWhile isSpace, (strip raw).rtakeWhile (· == slash),
    (lstrip raw).rtakeWhile isSpace, ?_, ?_, ?_, ?_⟩
  · have hback : strip raw ++ (lstrip raw).rtakeWhile isSpace = lstrip raw :=
      List.rdropWhile_append_rtakeWhile
    have hslashes : rstripChar slash (strip raw) ++ (strip raw).rtakeWhile (· == slash) =
        strip raw := List.rdropWhile_append_rtakeWhile
    rw [List.append_assoc, List.append_assoc, ← List.append_assoc (rstripChar slash (strip raw)),
      hslashes, hback]
    exact List.takeWhile_append_dropWhile.symm
  · exact fun c hc ↦ List.mem_takeWhile_imp hc
  · exact fun c hc ↦ eq_of_beq (List.mem_rtakeWhile_imp (p := fun x ↦ x == slash) hc)
  · exact fun c hc ↦ List.mem_rtakeWhile_imp hc

theorem lstrip_eq_self {raw : Str} (h : startsWithSpace raw = false) : lstrip raw = raw := by
  cases raw with
  | nil => rfl
  | cons c rest =>
    have hc : isSpace c = false := h
    rw [lstrip, List.dropWhile_cons_of_neg (by simp [hc])]

/-- A text that starts with no whitespace starts with its normal form. -/
theorem prefix_of_no_front {raw n : Str} (h : normalise raw = .ok n)
    (hfront : startsWithSpace raw = false) : n <+: raw := by
  obtain ⟨_, rfl⟩ := normalise_eq_ok.mp h
  have hstrip : strip raw <+: raw := by
    rw [strip, lstrip_eq_self hfront]
    exact List.rdropWhile_prefix _ _
  exact (List.rdropWhile_prefix _ _).trans hstrip

/-- What follows the normal form in the text is a slash or whitespace. -/
theorem next_of_prefix {raw n : Str} {c : CodePoint} (h : normalise raw = .ok n)
    (hfront : startsWithSpace raw = false) (hnext : n ++ [c] <+: raw) :
    c = slash ∨ isSpace c = true := by
  obtain ⟨front, slashes, back, hraw, hfronts, hslashes, hback⟩ := exists_affixes h
  have hnil : front = [] := by
    cases front with
    | nil => rfl
    | cons d rest =>
      have hd : isSpace d = true := hfronts d List.mem_cons_self
      rw [hraw] at hfront
      exact absurd (hfront.symm.trans hd) Bool.false_ne_true
  obtain ⟨rest, hrest⟩ := hnext
  rw [hraw, hnil, List.nil_append, List.append_assoc, List.append_assoc, List.append_cancel_left_eq]
    at hrest
  have hmem : c ∈ slashes ++ back := hrest ▸ List.mem_cons_self
  rcases List.mem_append.mp hmem with hc | hc
  · exact .inl (hslashes c hc)
  · exact .inr (hback c hc)

end DatumSync.Vault
