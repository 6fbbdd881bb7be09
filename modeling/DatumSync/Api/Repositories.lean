import DatumSync.Automations.Firing
import DatumSync.Principal
import DatumSync.Schedules.Schedule

/-!
# Which repositories a caller reaches

`require_repo` decides about one repository with `_scope_matches`; the listings of schedules and
automations filter in SQL, by the first segments of the caller's scope.  A row of either table is
found by its id.
-/

namespace DatumSync.Api

open Python Automations

/-- How a value is shown: by `str`, as JSON in the detail of an error, and by `->>`, which turns a
stored value that is neither null nor a text into a text. -/
structure Rendering extends Shown where
  jsonOf : Yaml → Json
  jsonbText : Yaml → Str

/-- `pattern.endswith("/*")` -/
def endsWithAll (pattern : Str) : Bool := (str "/*").isSuffixOf pattern

def scopeMatches (pattern : Str) (repo : Yaml) : Bool :=
  if pattern = str "*" then true
  else if endsWithAll pattern then repo.eqText (pattern.take (pattern.length - 2))
  else repo.eqText pattern

def allRepos (principal : Principal) : Bool := decide (str "*" ∈ principal.repoScope)

def allowsRepo (principal : Principal) (repo : Yaml) : Bool :=
  principal.repoScope.any fun pattern ↦ scopeMatches pattern repo

variable (view : Rendering)

def requireRepo (principal : Principal) (repo : Yaml) : Except Exc Unit :=
  if allowsRepo principal repo then .ok ()
  else .error (.api 403 (str "FORBIDDEN")
    (principal.name ++ str " is not scoped to repository " ++ view.strOf repo)
    [(str "repository", view.jsonOf repo)])

def requireWatchScope (caller : Principal) (repository : Yaml) : Except Exc Unit :=
  if !repository.isNull then requireRepo view caller repository
  else if !allRepos caller && !caller.isAdmin then
    .error (.api 403 (str "FORBIDDEN")
      (caller.name ++ str (" is scoped to particular repositories, so a trigger must name one; " ++
        "an unfiltered trigger watches all of them"))
      [(str "repo_scope", .arr (caller.repoScope.map .text))])
  else .ok ()

def requireActionScope (caller : Principal) : List Action → Except Exc Unit
  | [] => .ok ()
  | .runWorkspace repository _ _ :: rest => do
    requireRepo view caller (.text repository)
    requireActionScope caller rest
  | .httpRequest .. :: rest => requireActionScope caller rest

def requireAutomationScope (caller : Principal) (config : Config) : Except Exc Unit := do
  requireWatchScope view caller config.trigger.repository
  requireActionScope view caller config.actions

/-- `s.split("/")[0]` -/
def firstSegment (s : Str) : Str := (split (cp '/') s).headD []

/-- `_scope_sql`: the texts the column must be among, if there is a condition. -/
def scopeSql (caller : Principal) : Option (List Str) :=
  if allRepos caller then none else some (caller.repoScope.map firstSegment)

/-- The condition of `_scope_sql` on a column, which may be `NULL`. -/
def inScope (caller : Principal) (column : Option Str) : Bool :=
  match scopeSql caller with
  | none => true
  | some names =>
    match column with
    | none => false
    | some text => decide (text ∈ names)

/-! ## Tables -/

/-- A table whose primary key is `id`. -/
structure Table (α : Type) (id : α → ℤ) where
  rows : List α
  nodup : (rows.map id).Nodup

namespace Table

variable {α : Type} {id : α → ℤ}

/-- `SELECT ... WHERE id = $1` -/
def get (table : Table α id) (key : ℤ) : Option α := table.rows.find? fun row ↦ id row == key

theorem get_of_mem {table : Table α id} {row : α} (h : row ∈ table.rows) :
    table.get (id row) = some row := by
  obtain ⟨rows, hnodup⟩ := table
  change rows.find? (fun other ↦ id other == id row) = some row
  induction rows with
  | nil => cases h
  | cons first rest ih =>
    rw [List.map_cons, List.nodup_cons] at hnodup
    rcases List.mem_cons.mp h with rfl | hrest
    · exact List.find?_cons_of_pos (beq_self_eq_true _)
    · have hne : id first ≠ id row := fun heq ↦ hnodup.1 (heq ▸ List.mem_map_of_mem hrest)
      rw [List.find?_cons_of_neg (by simpa using hne)]
      exact ih hnodup.2 hrest

end Table

structure StoredAutomation extends Automation where
  id : ℤ

abbrev ScheduleTable := Table Schedules.Row Schedules.Row.id

abbrev AutomationTable := Table StoredAutomation StoredAutomation.id

/-- `config -> 'trigger' ->> 'repository'` -/
def triggerColumn (config : Config) : Option Str :=
  match config.trigger.repository with
  | .null => none
  | .text s => some s
  | value => some (view.jsonbText value)

/-- `list_schedules`; `precedes` is `ORDER BY enabled DESC, next_run, name`. -/
def listSchedules (precedes : Schedules.Row → Schedules.Row → Bool) (table : ScheduleTable)
    (caller : Principal) : List Schedules.Row :=
  (table.rows.filter fun row ↦ inScope caller (some row.repository)).mergeSort precedes

def getSchedule (table : ScheduleTable) (caller : Principal) (id : ℤ) :
    Except Exc Schedules.Row :=
  match table.get id with
  | none => .error (.api 404 (str "NOT_FOUND") (str "no schedule " ++ decimal id) [])
  | some row => do
    requireRepo view caller (.text row.repository)
    return row

/-- `list_automations`; `precedes` is `ORDER BY enabled DESC, name`. -/
def listAutomations (precedes : StoredAutomation → StoredAutomation → Bool)
    (table : AutomationTable) (caller : Principal) : List StoredAutomation :=
  (table.rows.filter fun row ↦ inScope caller (triggerColumn view row.config)).mergeSort precedes

/-- `_automation_for`, and so `get_automation` -/
def automationFor (table : AutomationTable) (caller : Principal) (id : ℤ) :
    Except Exc StoredAutomation :=
  match table.get id with
  | none => .error (.api 404 (str "NOT_FOUND") (str "no automation " ++ decimal id) [])
  | some row => do
    requireAutomationScope view caller row.config
    return row

/-! ## The checks as conditions -/

theorem requireRepo_eq_ok {principal : Principal} {repo : Yaml} :
    requireRepo view principal repo = .ok () ↔ allowsRepo principal repo = true := by
  rw [requireRepo]
  split
  · next h => exact iff_of_true rfl h
  · next h => exact iff_of_false nofun h

/-- Whether a caller may have an action run. -/
def actionAllowed (principal : Principal) : Action → Bool
  | .runWorkspace repository _ _ => allowsRepo principal (.text repository)
  | .httpRequest .. => true

theorem requireActionScope_eq_ok {caller : Principal} {actions : List Action} :
    requireActionScope view caller actions = .ok () ↔
      actions.all (actionAllowed caller) = true := by
  induction actions with
  | nil => exact iff_of_true rfl rfl
  | cons action rest ih =>
    rw [List.all_cons, Bool.and_eq_true, ← ih]
    cases action with
    | runWorkspace repository workspace params =>
      rw [requireActionScope, actionAllowed, ← requireRepo_eq_ok view]
      cases requireRepo view caller (.text repository) with
      | error e => exact iff_of_false nofun fun h ↦ nomatch h.1
      | ok u => exact ⟨fun h ↦ ⟨rfl, h⟩, fun h ↦ h.2⟩
    | httpRequest url method headers body => exact ⟨fun h ↦ ⟨rfl, h⟩, fun h ↦ h.2⟩

/-- Whether a caller may watch what a trigger watches. -/
def watchAllowed (caller : Principal) (repository : Yaml) : Bool :=
  if repository.isNull then allRepos caller || caller.isAdmin else allowsRepo caller repository

theorem requireAutomationScope_eq_ok {caller : Principal} {config : Config} :
    requireAutomationScope view caller config = .ok () ↔
      watchAllowed caller config.trigger.repository = true ∧
        config.actions.all (actionAllowed caller) = true := by
  have hwatch : requireWatchScope view caller config.trigger.repository = .ok () ↔
      watchAllowed caller config.trigger.repository = true := by
    rw [requireWatchScope, watchAllowed]
    cases config.trigger.repository.isNull with
    | false => exact requireRepo_eq_ok view
    | true => cases allRepos caller <;> cases caller.isAdmin <;> simp
  rw [requireAutomationScope, ← hwatch, ← requireActionScope_eq_ok view]
  cases requireWatchScope view caller config.trigger.repository with
  | error e => exact iff_of_false nofun fun h ↦ nomatch h.1
  | ok u => exact ⟨fun h ↦ ⟨rfl, h⟩, fun h ↦ h.2⟩

theorem allowsRepo_of_allRepos {principal : Principal} (h : allRepos principal = true)
    (repo : Yaml) : allowsRepo principal repo = true :=
  List.any_eq_true.mpr ⟨str "*", of_decide_eq_true h, if_pos rfl⟩

theorem allowsRepo_not_text {principal : Principal} (h : allRepos principal = false)
    {repo : Yaml} (hrepo : ∀ s, repo ≠ .text s) : allowsRepo principal repo = false := by
  rw [allowsRepo, List.any_eq_false]
  intro pattern hpattern
  have hstar : pattern ≠ str "*" := by
    rintro rfl
    exact of_decide_eq_false h hpattern
  rw [scopeMatches, if_neg hstar]
  split
  · exact fun heq ↦ hrepo _ (Yaml.eqText_iff.mp heq)
  · exact fun heq ↦ hrepo _ (Yaml.eqText_iff.mp heq)

/-! ## The first segment of a scope -/

/-- The text that a first segment is followed by. -/
def slash : CodePoint := cp '/'

/-- A scope has a repository as its first segment when it is its name or goes on with a slash. -/
theorem firstSegment_eq_iff {s repository : Str} :
    firstSegment s = repository ↔
      slash ∉ repository ∧ (s = repository ∨ repository ++ [slash] <+: s) := by
  have hjoin := join_split slash s
  rw [firstSegment]
  change (split slash s).headD [] = repository ↔ _
  constructor
  · rintro rfl
    cases hsplit : split slash s with
    | nil => exact absurd hsplit (split_ne_nil slash s)
    | cons first others =>
      rw [hsplit] at hjoin
      refine ⟨not_mem_of_mem_split (hsplit ▸ List.mem_cons_self), ?_⟩
      cases others with
      | nil => exact .inl (by simpa [join] using hjoin.symm)
      | cons second rest =>
        rw [join, List.intercalate_cons_cons] at hjoin
        exact .inr ⟨_, hjoin⟩
  · rintro ⟨hslash, rfl | ⟨rest, rfl⟩⟩
    · rw [split, List.splitOn_eq_singleton hslash]
      rfl
    · rw [List.append_assoc, List.singleton_append, split_append_cons hslash]
      rfl

/-- A scope that grants a repository without a slash has it as its first segment. -/
theorem firstSegment_of_scopeMatches {pattern repository : Str} (hstar : pattern ≠ str "*")
    (hslash : slash ∉ repository) (h : scopeMatches pattern (.text repository) = true) :
    firstSegment pattern = repository := by
  rw [firstSegment_eq_iff]
  refine ⟨hslash, ?_⟩
  rw [scopeMatches, if_neg hstar] at h
  split at h
  · next hall =>
    obtain ⟨front, rfl⟩ := List.isSuffixOf_iff_suffix.mp hall
    have htake : (front ++ str "/*").take ((front ++ str "/*").length - 2) = front := by
      rw [List.length_append]
      exact List.take_left' (by simp [str])
    rw [htake] at h
    rw [Yaml.text.inj (Yaml.eqText_iff.mp h)]
    exact .inr ⟨str "*", by rw [List.append_assoc]; rfl⟩
  · exact .inl (Yaml.text.inj (Yaml.eqText_iff.mp h)).symm

/-! ## Listings against single rows -/

/-- A listing holds the rows whose own request succeeds. -/
def ListsPermitted {α : Type} {id : α → ℤ} (table : Table α id) (listing : List α)
    (get : ℤ → Except Exc α) : Prop :=
  ∀ row, row ∈ listing ↔ row ∈ table.rows ∧ get (id row) = .ok row

/-- The scope does not tell a schedule's listing from its access: either the caller holds
everything, or the repository has no slash and an entry that goes on after it with a slash comes
with one that grants it, or it has a slash and is not granted. -/
def SchedulePlain (caller : Principal) (repository : Str) : Prop :=
  allRepos caller = true ∨
    if slash ∈ repository then allowsRepo caller (.text repository) = false
    else (∃ s ∈ caller.repoScope, repository ++ [slash] <+: s) →
      allowsRepo caller (.text repository) = true

/-- The same for an automation, whose actions count for its access and not for its listing. -/
def AutomationPlain (caller : Principal) (config : Config) : Prop :=
  allRepos caller = true ∨
    match config.trigger.repository with
    | .null => caller.isAdmin = false ∨ config.actions.all (actionAllowed caller) = false
    | .text repository =>
      if slash ∈ repository then
        allowsRepo caller (.text repository) = false ∨
          config.actions.all (actionAllowed caller) = false
      else (∃ s ∈ caller.repoScope, s = repository ∨ repository ++ [slash] <+: s) →
        allowsRepo caller (.text repository) = true ∧
          config.actions.all (actionAllowed caller) = true
    | value => ∀ s ∈ caller.repoScope, firstSegment s ≠ view.jsonbText value

/-- A listing by a condition holds the permitted rows exactly when each row is permitted where the
condition holds. -/
theorem listsPermitted_iff {α : Type} {id : α → ℤ} {table : Table α id}
    {condition : α → Bool} {precedes : α → α → Bool} {get : ℤ → Except Exc α} :
    ListsPermitted table ((table.rows.filter condition).mergeSort precedes) get ↔
      ∀ row ∈ table.rows, condition row = true ↔ get (id row) = .ok row := by
  rw [ListsPermitted]
  apply forall_congr'
  intro row
  rw [List.mem_mergeSort, List.mem_filter]
  constructor
  · intro h hrow
    exact ⟨fun hcondition ↦ (h.mp ⟨hrow, hcondition⟩).2, fun hget ↦ (h.mpr ⟨hrow, hget⟩).2⟩
  · intro h
    exact and_congr_right h

theorem inScope_of_allRepos {caller : Principal} (h : allRepos caller = true)
    (column : Option Str) : inScope caller column = true := by
  rw [inScope, scopeSql, if_pos h]

theorem inScope_none {caller : Principal} (h : allRepos caller = false) :
    inScope caller none = false := by
  rw [inScope, scopeSql, h]
  rfl

theorem inScope_some {caller : Principal} (h : allRepos caller = false) {text : Str} :
    inScope caller (some text) = true ↔ ∃ s ∈ caller.repoScope, firstSegment s = text := by
  rw [inScope, scopeSql, h]
  exact decide_eq_true_iff.trans List.mem_map

/-- Without a slash every repository that is granted is listed; with one none is listed. -/
theorem inScope_text {caller : Principal} (h : allRepos caller = false) {repository : Str} :
    inScope caller (some repository) = true ↔ slash ∉ repository ∧
      ∃ s ∈ caller.repoScope, s = repository ∨ repository ++ [slash] <+: s := by
  rw [inScope_some h]
  constructor
  · rintro ⟨s, hs, hsegment⟩
    rw [firstSegment_eq_iff] at hsegment
    exact ⟨hsegment.1, s, hs, hsegment.2⟩
  · rintro ⟨hslash, s, hs, hbegins⟩
    exact ⟨s, hs, firstSegment_eq_iff.mpr ⟨hslash, hbegins⟩⟩

theorem inScope_of_allowsRepo {caller : Principal} {repository : Str}
    (hslash : slash ∉ repository) (h : allowsRepo caller (.text repository) = true) :
    inScope caller (some repository) = true := by
  cases hall : allRepos caller with
  | true => exact inScope_of_allRepos hall _
  | false =>
    obtain ⟨pattern, hpattern, hmatch⟩ := List.any_eq_true.mp h
    have hstar : pattern ≠ str "*" := by
      rintro rfl
      exact of_decide_eq_false hall hpattern
    exact (inScope_some hall).mpr
      ⟨pattern, hpattern, firstSegment_of_scopeMatches hstar hslash hmatch⟩

/-- An entry that is the repository itself grants it, unless it ends in `/*`. -/
theorem allowsRepo_of_mem {caller : Principal} {repository : Str} (hslash : slash ∉ repository)
    (h : repository ∈ caller.repoScope) : allowsRepo caller (.text repository) = true := by
  refine List.any_eq_true.mpr ⟨repository, h, ?_⟩
  rw [scopeMatches]
  split
  · rfl
  · rw [if_neg]
    · exact Yaml.eqText_iff.mpr rfl
    · intro hall
      obtain ⟨front, rfl⟩ := List.isSuffixOf_iff_suffix.mp hall
      exact hslash (List.mem_append_right _ List.mem_cons_self)

theorem schedulePlain_iff {caller : Principal} {repository : Str} :
    (inScope caller (some repository) = true ↔ allowsRepo caller (.text repository) = true) ↔
      SchedulePlain caller repository := by
  rw [SchedulePlain]
  cases hall : allRepos caller with
  | true =>
    exact iff_of_true (iff_of_true (inScope_of_allRepos hall _) (allowsRepo_of_allRepos hall _))
      (.inl rfl)
  | false =>
    rw [or_iff_right Bool.false_ne_true]
    split
    · next hslash =>
      have hunlisted : ¬ inScope caller (some repository) = true := fun h ↦
        ((inScope_text hall).mp h).1 hslash
      rw [iff_false_left hunlisted, Bool.not_eq_true]
    · next hslash =>
      constructor
      · rintro h ⟨s, hs, hbegins⟩
        exact h.mp ((inScope_text hall).mpr ⟨hslash, s, hs, .inr hbegins⟩)
      · intro h
        refine ⟨fun hlisted ↦ ?_, inScope_of_allowsRepo hslash⟩
        obtain ⟨-, s, hs, rfl | hbegins⟩ := (inScope_text hall).mp hlisted
        · exact allowsRepo_of_mem hslash hs
        · exact h ⟨s, hs, hbegins⟩

theorem automationPlain_iff {caller : Principal} {config : Config} :
    (inScope caller (triggerColumn view config) = true ↔
      watchAllowed caller config.trigger.repository = true ∧
        config.actions.all (actionAllowed caller) = true) ↔ AutomationPlain view caller config := by
  rw [AutomationPlain, triggerColumn, watchAllowed]
  cases hall : allRepos caller with
  | true =>
    refine iff_of_true (iff_of_true (inScope_of_allRepos hall _) ⟨?_, ?_⟩) (.inl rfl)
    · split
      · rfl
      · exact allowsRepo_of_allRepos hall _
    · rw [List.all_eq_true]
      intro action _
      cases action with
      | runWorkspace repository workspace params => exact allowsRepo_of_allRepos hall _
      | httpRequest url method headers body => rfl
  | false =>
    rw [or_iff_right Bool.false_ne_true]
    -- no entry but the wildcard grants a value that is not a text
    have hother : ∀ value : Yaml, (∀ s, value ≠ .text s) →
        ((inScope caller (some (view.jsonbText value)) = true ↔
          allowsRepo caller value = true ∧ config.actions.all (actionAllowed caller) = true) ↔
        ∀ s ∈ caller.repoScope, firstSegment s ≠ view.jsonbText value) := by
      intro value hvalue
      have hrefused : ¬ (allowsRepo caller value = true ∧
          config.actions.all (actionAllowed caller) = true) := by
        rw [allowsRepo_not_text hall hvalue]
        exact fun h ↦ Bool.false_ne_true h.1
      rw [iff_false_right hrefused, inScope_some hall]
      push Not
      rfl
    cases config.trigger.repository with
    | null =>
      change (inScope caller none = true ↔ (false || caller.isAdmin) = true ∧ _) ↔ _
      rw [inScope_none hall, Bool.false_or]
      cases caller.isAdmin <;> simp
    | text repository =>
      change (inScope caller (some repository) = true ↔
        allowsRepo caller (.text repository) = true ∧ _) ↔ if slash ∈ repository then _ else _
      split
      · next hslash =>
        have hunlisted : ¬ inScope caller (some repository) = true := fun h ↦
          ((inScope_text hall).mp h).1 hslash
        rw [iff_false_left hunlisted, not_and_or, Bool.not_eq_true, Bool.not_eq_true]
      · next hslash =>
        constructor
        · intro h hentry
          exact h.mp ((inScope_text hall).mpr ⟨hslash, hentry⟩)
        · intro h
          exact ⟨fun hlisted ↦ h ((inScope_text hall).mp hlisted).2,
            fun hallowed ↦ inScope_of_allowsRepo hslash hallowed.1⟩
    | _ => exact hother _ nofun

/-- The listings of schedules and automations are the rows a caller may get one by one exactly when
its scope does not tell the two apart for any row. -/
theorem listings_permitted_iff (caller : Principal) (schedules : ScheduleTable)
    (automations : AutomationTable) (bySchedule : Schedules.Row → Schedules.Row → Bool)
    (byAutomation : StoredAutomation → StoredAutomation → Bool) :
    (ListsPermitted schedules (listSchedules bySchedule schedules caller)
        (getSchedule view schedules caller) ↔
      ∀ row ∈ schedules.rows, SchedulePlain caller row.repository) ∧
    (ListsPermitted automations (listAutomations view byAutomation automations caller)
        (automationFor view automations caller) ↔
      ∀ row ∈ automations.rows, AutomationPlain view caller row.config) := by
  constructor
  · rw [listSchedules, listsPermitted_iff]
    apply forall₂_congr
    intro row hrow
    rw [← schedulePlain_iff, ← requireRepo_eq_ok view, getSchedule, Table.get_of_mem hrow]
    dsimp only
    cases requireRepo view caller (.text row.repository) with
    | error e => exact iff_congr Iff.rfl (iff_of_false nofun nofun)
    | ok u => exact iff_congr Iff.rfl (iff_of_true rfl rfl)
  · rw [listAutomations, listsPermitted_iff]
    apply forall₂_congr
    intro row hrow
    rw [← automationPlain_iff, ← requireAutomationScope_eq_ok view, automationFor,
      Table.get_of_mem hrow]
    dsimp only
    cases requireAutomationScope view caller row.config with
    | error e => exact iff_congr Iff.rfl (iff_of_false nofun nofun)
    | ok u => exact iff_congr Iff.rfl (iff_of_true rfl rfl)

/-- A rendering that shows texts only. -/
def textsOnly : Rendering where
  strOf
    | .text s => s
    | _ => []
  reprOf _ := []
  strOf_text s := (rfl : s = s)
  jsonOf
    | .text s => .text s
    | _ => .null
  jsonbText _ := []

/-- An account with a token and the given scope. -/
def scopedTo (scope : List Str) : Principal where
  accountId := 1
  name := str "ops"
  maxTier := 4
  repoScope := scope
  isAdmin := false
  source := .token
  vaultScope := none
  rateLimitPerMin := none

/-- A schedule of the repository `ops`. -/
def nightly : Schedules.Row where
  id := 1
  name := str "nightly"
  repository := str "ops"
  workspace := str "load"
  params := str "{}"
  trigger := ⟨none, some 60, str "UTC"⟩
  enabled := true
  nextRun := some 0

/-- An automation that watches `ops` and runs a workspace of `finance`. -/
def acrossRepositories : StoredAutomation where
  id := 1
  name := str "report"
  config := {
    name := str "report"
    enabled := true
    trigger := ⟨.text (str "ops"), .null, none⟩
    actions := [.runWorkspace (str "finance") (str "publish") []] }
  enabled := true
  createdAt := 0

/-- The scope `ops/nightly` lists the schedules of `ops` and may get none of them; the scope `ops`
lists an automation that it may not get. -/
theorem listings_not_permitted :
    (¬ ∀ caller schedules, ListsPermitted schedules
      (listSchedules (fun _ _ ↦ true) schedules caller) (getSchedule textsOnly schedules caller)) ∧
    ¬ ∀ caller automations, ListsPermitted automations
      (listAutomations textsOnly (fun _ _ ↦ true) automations caller)
      (automationFor textsOnly automations caller) := by
  constructor
  · intro h
    have hrow := h (scopedTo [str "ops/nightly"]) ⟨[nightly], List.nodup_singleton _⟩ nightly
    cases (hrow.mp (List.mem_mergeSort.mpr (by decide))).2
  · intro h
    have hrow := h (scopedTo [str "ops"]) ⟨[acrossRepositories], List.nodup_singleton _⟩
      acrossRepositories
    have hlisted : acrossRepositories ∈ [acrossRepositories].filter fun row ↦
        inScope (scopedTo [str "ops"]) (triggerColumn textsOnly row.config) :=
      List.mem_filter.mpr ⟨List.mem_singleton_self _, by decide⟩
    cases (hrow.mp (List.mem_mergeSort.mpr hlisted)).2

end DatumSync.Api
