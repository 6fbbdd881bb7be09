import DatumSync.Vault.Pattern

/-!
# Vault scopes

A scope is a JSON document with one list of patterns for each action and one for `deny`.  It is
validated when an account is written, so every scope a request is checked against has passed
`validate_scope`; `Scope` carries that as a field.  Denies are checked before any allow.
-/

namespace DatumSync.Vault

open Python

inductive Action where
  | read
  | write
  | quarantine
  | promote
  deriving DecidableEq

def Action.key : Action → Str
  | read => str "read"
  | write => str "write"
  | quarantine => str "quarantine"
  | promote => str "promote"

def actions : List Action := [.read, .write, .quarantine, .promote]

def denyKey : Str := str "deny"

def scopeKeys : List Str := actions.map Action.key ++ [denyKey]

/-- The text of a `VaultScopeError`; `repr` renders the values written with `!r`. -/
def ScopeError.message (repr : Str → Str) : ScopeError → Str
  | notAnObject => str "vault_scope must be an object"
  | unknownKeys keys => str "unknown keys in vault_scope: " ++ commaSorted keys
  | notAList key => str "vault_scope." ++ key ++ str " must be a list of patterns"
  | notAPattern key =>
    str "vault_scope." ++ key ++ str " contains a non-string or empty pattern"
  | traversal key pattern =>
    str "vault_scope." ++ key ++ str ": pattern " ++ repr pattern ++
      str " contains a traversal segment"
  | currentDirectory key pattern =>
    str "vault_scope." ++ key ++ str ": pattern " ++ repr pattern ++
      str " contains a current-directory segment"
  | partialWildcard key pattern segment =>
    str "vault_scope." ++ key ++ str ": pattern " ++ repr pattern ++
      str " has a partial wildcard in segment " ++ repr segment ++
      str " — use * (one segment) or ** (any depth)"
  | writeNotInRead patterns =>
    str "write patterns not in read (write-implies-read): " ++ commaSorted patterns
  | alsoDenied action patterns =>
    str "deny patterns also in " ++ action ++ str " (contradictory): " ++ commaSorted patterns

def checkPatterns (key : Str) : List Json → Except ScopeError (List Str)
  | [] => .ok []
  | .text p :: rest =>
    if p = [] then .error (.notAPattern key)
    else match validatePattern key p with
      | .error e => .error e
      | .ok () => (checkPatterns key rest).map (p :: ·)
  | _ :: _ => .error (.notAPattern key)

/-- The loop over `SCOPE_KEYS`: `all_patterns`. -/
def collectPatterns (fields : List (Str × Json)) :
    List Str → Except ScopeError (List (Str × List Str))
  | [] => .ok []
  | key :: rest =>
    match Json.fieldD fields key .null with
    | .null => collectPatterns fields rest
    | .arr items =>
      match checkPatterns key items with
      | .error e => .error e
      | .ok patterns => (collectPatterns fields rest).map ((key, patterns) :: ·)
    | _ => .error (.notAList key)

/-- `all_patterns.get(key, [])` -/
def patternsOf (all : List (Str × List Str)) (key : Str) : List Str := (all.lookup key).getD []

/-- The loop of rule 2 over `ACTIONS`. -/
def checkDisjoint (all : List (Str × List Str)) : List Action → Except ScopeError Unit
  | [] => .ok ()
  | action :: rest =>
    let overlap := ((patternsOf all denyKey).filter (· ∈ patternsOf all action.key)).dedup
    if overlap ≠ [] then .error (.alsoDenied action.key overlap)
    else checkDisjoint all rest

def validateScope (scope : Json) : Except ScopeError Unit :=
  match scope with
  | .obj fields =>
    let unknown := (fields.map Prod.fst).filter (· ∉ scopeKeys)
    if unknown ≠ [] then .error (.unknownKeys unknown)
    else match collectPatterns fields scopeKeys with
      | .error e => .error e
      | .ok all =>
        let missing := ((patternsOf all (str "write")).filter
          (· ∉ patternsOf all (str "read"))).dedup
        if missing ≠ [] then .error (.writeNotInRead missing)
        else checkDisjoint all actions
  | _ => .error .notAnObject

/-- A scope as an account row holds it. -/
structure Scope where
  fields : List (Str × Json)
  valid : validateScope (.obj fields) = .ok ()

namespace Scope

/-- `scope.get(key) or ()`: a validated scope has a list of texts or nothing there. -/
def patterns (scope : Scope) (key : Str) : List Str :=
  match Json.fieldD scope.fields key .null with
  | .arr items => items.filterMap fun item ↦ match item with
    | .text p => some p
    | _ => none
  | _ => []

end Scope

/-- `vault.permits` for a path that is already normalised. -/
def permits (scope : Option Scope) (action : Action) (path : Str) : Bool :=
  match scope with
  | none => false
  | some scope =>
    if scope.fields.isEmpty then false
    else if (scope.patterns denyKey).any (matchesPattern · path) then false
    else (scope.patterns action.key).any (matchesPattern · path)

def detailOf (path : Str) (action : Action) : List (Str × Json) :=
  [(str "path", .text path), (str "action", .text action.key)]

def check (scope : Option Scope) (action : Action) (path : Str) : Except Exc Str :=
  match normalise path with
  | .error e => .error (.api 400 (str "INVALID_PARAMETER") e.message [(str "path", .text path)])
  | .ok normalised =>
    if permits scope action normalised then .ok normalised
    else .error (.api 403 (str "FORBIDDEN")
      (str "this account may not " ++ action.key ++ str " " ++ normalised)
      (detailOf normalised action))

theorem permits_some_eq_true {scope : Scope} {action : Action} {path : Str} :
    permits (some scope) action path = true ↔
      scope.fields ≠ [] ∧ (∀ p ∈ scope.patterns denyKey, matchesPattern p path = false) ∧
        ∃ p ∈ scope.patterns action.key, matchesPattern p path = true := by
  simp only [permits]
  split_ifs with hempty hdeny
  · simp_all
  · simp only [false_iff, not_and]
    intro _ hall
    obtain ⟨p, hp, hmatch⟩ := List.any_eq_true.mp hdeny
    rw [hall p hp] at hmatch
    exact absurd hmatch Bool.false_ne_true
  · have hne : scope.fields ≠ [] := by simpa using hempty
    have hall : ∀ p ∈ scope.patterns denyKey, matchesPattern p path = false := by
      simpa using hdeny
    rw [List.any_eq_true]
    exact (and_iff_right hne).trans (and_iff_right hall) |>.symm

/-- A deny pattern that covers a path ends the question. -/
theorem permits_eq_false_of_deny {scope : Scope} {action : Action} {path pattern : Str}
    (hdeny : pattern ∈ scope.patterns denyKey) (hmatch : matchesPattern pattern path = true) :
    permits (some scope) action path = false := by
  rw [Bool.eq_false_iff, Ne, permits_some_eq_true]
  rintro ⟨_, hall, _⟩
  rw [hall pattern hdeny] at hmatch
  exact Bool.false_ne_true hmatch

/-! ## The patterns of a validated scope -/

theorem validatePattern_of_checkPatterns {key : Str} {items : List Json} {patterns : List Str}
    (h : checkPatterns key items = .ok patterns) :
    ∀ p, .text p ∈ items → validatePattern key p = .ok () := by
  induction items generalizing patterns with
  | nil => exact fun p hp ↦ absurd hp List.not_mem_nil
  | cons item rest ih =>
    cases item with
    | text q =>
      rw [checkPatterns] at h
      split_ifs at h
      split at h
      · cases h
      · next hvalid =>
        cases hrest : checkPatterns key rest with
        | error e => rw [hrest] at h; cases h
        | ok more =>
          intro p hp
          rcases List.mem_cons.mp hp with heq | hmem
          · rw [Json.text.inj heq]
            exact hvalid
          · exact ih hrest p hmem
    | _ => cases h

theorem checkPatterns_of_collectPatterns {fields : List (Str × Json)} {keys : List Str}
    {all : List (Str × List Str)} (h : collectPatterns fields keys = .ok all) :
    ∀ key ∈ keys, ∀ items, Json.fieldD fields key .null = .arr items →
      ∃ patterns, checkPatterns key items = .ok patterns := by
  induction keys generalizing all with
  | nil => exact fun key hkey ↦ absurd hkey List.not_mem_nil
  | cons first rest ih =>
    rw [collectPatterns] at h
    intro key hkey items hitems
    split at h
    · next hnull =>
      rcases List.mem_cons.mp hkey with rfl | hmem
      · rw [hnull] at hitems
        cases hitems
      · exact ih h key hmem items hitems
    · next found hfound =>
      split at h
      · cases h
      · next patterns hpatterns =>
        rcases List.mem_cons.mp hkey with rfl | hmem
        · rw [hfound] at hitems
          exact ⟨patterns, Json.arr.inj hitems ▸ hpatterns⟩
        · cases hrest : collectPatterns fields rest with
          | error e => rw [hrest] at h; cases h
          | ok more => exact ih hrest key hmem items hitems
    · cases h

/-- Every pattern that a scope has for one of its keys has passed `_validate_pattern`. -/
theorem Scope.validatePattern_eq_ok (scope : Scope) {key p : Str} (hkey : key ∈ scopeKeys)
    (hp : p ∈ scope.patterns key) : validatePattern key p = .ok () := by
  have hvalid := scope.valid
  unfold validateScope at hvalid
  dsimp only at hvalid
  split_ifs at hvalid
  split at hvalid
  · cases hvalid
  · next all hall =>
    unfold Scope.patterns at hp
    split at hp
    · next items hitems =>
      obtain ⟨patterns, hpatterns⟩ := checkPatterns_of_collectPatterns hall key hkey items hitems
      obtain ⟨item, hitem, hsome⟩ := List.mem_filterMap.mp hp
      cases item with
      | text q => exact validatePattern_of_checkPatterns hpatterns p (Option.some.inj hsome ▸ hitem)
      | _ => cases hsome
    · exact absurd hp List.not_mem_nil

/-! ## Scopes with allowed reads and denies -/

theorem checkDisjoint_eq_ok {all : List (Str × List Str)} {acts : List Action} :
    checkDisjoint all acts = .ok () ↔
      ∀ action ∈ acts, ∀ p ∈ patternsOf all denyKey, p ∉ patternsOf all action.key := by
  induction acts with
  | nil => simp [checkDisjoint]
  | cons action rest ih =>
    have hoverlap : ((patternsOf all denyKey).filter (· ∈ patternsOf all action.key)).dedup = [] ↔
        ∀ p ∈ patternsOf all denyKey, p ∉ patternsOf all action.key := by
      rw [List.dedup_eq_nil, List.filter_eq_nil_iff]
      simp only [decide_eq_true_eq]
    rw [checkDisjoint, List.forall_mem_cons, ← hoverlap, ← ih]
    split_ifs with h
    · exact iff_of_false nofun (fun hand ↦ h hand.1)
    · exact (and_iff_right (not_not.mp h)).symm

theorem checkPatterns_map_text {key : Str} {patterns : List Str}
    (h : ∀ p ∈ patterns, p ≠ [] ∧ validatePattern key p = .ok ()) :
    checkPatterns key (patterns.map .text) = .ok patterns := by
  induction patterns with
  | nil => rfl
  | cons p rest ih =>
    rw [List.forall_mem_cons] at h
    rw [List.map_cons, checkPatterns, if_neg h.1.1, h.1.2, ih h.2]
    rfl

def readDenyFields (read deny : List Str) : List (Str × Json) :=
  [(str "read", .arr (read.map .text)), (denyKey, .arr (deny.map .text))]

theorem collectPatterns_readDeny {read deny : List Str}
    (hread : ∀ p ∈ read, p ≠ [] ∧ validatePattern (str "read") p = .ok ())
    (hdeny : ∀ p ∈ deny, p ≠ [] ∧ validatePattern denyKey p = .ok ()) :
    collectPatterns (readDenyFields read deny) scopeKeys =
      .ok [(str "read", read), (denyKey, deny)] := by
  have habsent : ∀ key ∈ [str "write", str "quarantine", str "promote"],
      Json.fieldD (readDenyFields read deny) key .null = .null := by
    intro key hkey
    simp only [List.mem_cons, List.not_mem_nil, or_false] at hkey
    rcases hkey with rfl | rfl | rfl <;> rfl
  have hreadField : Json.fieldD (readDenyFields read deny) (str "read") .null =
      .arr (read.map .text) := rfl
  have hdenyField : Json.fieldD (readDenyFields read deny) denyKey .null =
      .arr (deny.map .text) := rfl
  simp only [scopeKeys, actions, List.map_cons, List.map_nil, List.cons_append, List.nil_append,
    Action.key, collectPatterns, hreadField, hdenyField, habsent, checkPatterns_map_text hread,
    checkPatterns_map_text hdeny, Except.map, List.mem_cons, List.not_mem_nil, or_false, true_or,
    or_true]

theorem validateScope_readDeny {read deny : List Str}
    (hread : ∀ p ∈ read, p ≠ [] ∧ validatePattern (str "read") p = .ok ())
    (hdeny : ∀ p ∈ deny, p ≠ [] ∧ validatePattern denyKey p = .ok ())
    (hdisjoint : ∀ p ∈ deny, p ∉ read) :
    validateScope (.obj (readDenyFields read deny)) = .ok () := by
  have hunknown : ((readDenyFields read deny).map Prod.fst).filter (· ∉ scopeKeys) = [] := by
    simp only [readDenyFields, List.map_cons, List.map_nil]
    decide
  have hwrite : patternsOf [(str "read", read), (denyKey, deny)] (str "write") = [] := rfl
  have hreadOf : patternsOf [(str "read", read), (denyKey, deny)] (str "read") = read := rfl
  have hdenyOf : patternsOf [(str "read", read), (denyKey, deny)] denyKey = deny := rfl
  have hquarantine : patternsOf [(str "read", read), (denyKey, deny)] (str "quarantine") = [] := rfl
  have hpromote : patternsOf [(str "read", read), (denyKey, deny)] (str "promote") = [] := rfl
  have hcheck : checkDisjoint [(str "read", read), (denyKey, deny)] actions = .ok () := by
    rw [checkDisjoint_eq_ok, hdenyOf]
    intro action _ p hp
    cases action with
    | read => rw [Action.key, hreadOf]; exact hdisjoint p hp
    | write => rw [Action.key, hwrite]; exact List.not_mem_nil
    | quarantine => rw [Action.key, hquarantine]; exact List.not_mem_nil
    | promote => rw [Action.key, hpromote]; exact List.not_mem_nil
  simp only [validateScope, hunknown, collectPatterns_readDeny hread hdeny, hwrite, hreadOf,
    List.filter_nil, List.dedup_nil, ne_eq, not_true_eq_false, if_false, hcheck]

def readDenyScope (read deny : List Str)
    (hread : ∀ p ∈ read, p ≠ [] ∧ validatePattern (str "read") p = .ok ())
    (hdeny : ∀ p ∈ deny, p ≠ [] ∧ validatePattern denyKey p = .ok ())
    (hdisjoint : ∀ p ∈ deny, p ∉ read) : Scope where
  fields := readDenyFields read deny
  valid := validateScope_readDeny hread hdeny hdisjoint

section

variable {read deny : List Str}
  (hread : ∀ p ∈ read, p ≠ [] ∧ validatePattern (str "read") p = .ok ())
  (hdeny : ∀ p ∈ deny, p ≠ [] ∧ validatePattern denyKey p = .ok ())
  (hdisjoint : ∀ p ∈ deny, p ∉ read)

theorem filterMap_map_text (patterns : List Str) :
    ((patterns.map Json.text).filterMap fun item ↦ match item with
      | .text p => some p
      | _ => none) = patterns := by
  rw [List.filterMap_map]
  exact List.filterMap_some

@[simp]
theorem patterns_readDenyScope_read :
    (readDenyScope read deny hread hdeny hdisjoint).patterns (str "read") = read :=
  filterMap_map_text read

@[simp]
theorem patterns_readDenyScope_deny :
    (readDenyScope read deny hread hdeny hdisjoint).patterns denyKey = deny :=
  filterMap_map_text deny

/-- What such a scope lets an account read. -/
theorem permits_readDenyScope {path : Str} :
    permits (some (readDenyScope read deny hread hdeny hdisjoint)) .read path = true ↔
      (∀ p ∈ deny, matchesPattern p path = false) ∧ ∃ p ∈ read, matchesPattern p path = true := by
  rw [permits_some_eq_true, Action.key, patterns_readDenyScope_read, patterns_readDenyScope_deny]
  exact and_iff_right (List.cons_ne_nil _ _)

end

end DatumSync.Vault
