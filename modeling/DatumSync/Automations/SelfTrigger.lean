import DatumSync.Automations.Loops

/-!
# The self-trigger check against the matcher

`_reject_self_trigger` reads a field of the trigger as a wildcard when it is `None`, `_matches`
when it is false.  The two differ on a value that is false and not `None`.
-/

namespace DatumSync.Automations

open Python Jobs

/-- False, and not `None`: a wildcard for `_matches` only. -/
def isBlank (value : Yaml) : Bool := !value.truthy && !value.isNull

/-- No job of a workspace the configuration runs matches its own trigger. -/
def NeverSelfMatches (config : Config) : Prop :=
  ∀ repository workspace params, .runWorkspace repository workspace params ∈ config.actions →
    ∀ job : Job, job.repository = repository → job.workspace = workspace →
      job.status.isTerminal = true → config.trigger.status.all (· == job.status) = true →
      triggerMatches config.trigger job = false

/-- Where one field of the trigger is blank, the other tells it from every workspace that the
configuration runs. -/
def BlankGuarded (config : Config) : Prop :=
  ∀ repository workspace params, .runWorkspace repository workspace params ∈ config.actions →
    (isBlank config.trigger.repository = true → config.trigger.workspace.truthy = true ∧
      config.trigger.workspace.eqText workspace = false) ∧
    (isBlank config.trigger.workspace = true → config.trigger.repository.truthy = true ∧
      config.trigger.repository.eqText repository = false)

/-- The matcher's wildcard is the check's one or blank. -/
theorem fieldMatches_eq (value : Yaml) (name : Str) :
    fieldMatches value name = (isNoneOr value name || isBlank value) := by
  cases value with
  | null => rfl
  | text s => simp [fieldMatches, isNoneOr, isBlank, Yaml.isNull, Bool.or_comm]
  | _ => simp [fieldMatches, isNoneOr, isBlank, Yaml.isNull, Yaml.eqText]

theorem fieldMatches_eq_false {value : Yaml} {name : Str} :
    fieldMatches value name = false ↔ value.truthy = true ∧ value.eqText name = false := by
  simp [fieldMatches]

/-- What `_reject_self_trigger` lets pass. -/
theorem rejectSelfTrigger_eq_ok {trigger : Trigger} {actions : List Action} :
    rejectSelfTrigger trigger actions = .ok () ↔
      ∀ repository workspace params, .runWorkspace repository workspace params ∈ actions →
        (isNoneOr trigger.workspace workspace && isNoneOr trigger.repository repository) =
          false := by
  induction actions with
  | nil => simp [rejectSelfTrigger]
  | cons action rest ih =>
    cases action with
    | httpRequest => simp [rejectSelfTrigger, ih]
    | runWorkspace repository workspace params =>
      rw [rejectSelfTrigger]
      split
      · next hself =>
        refine iff_of_false nofun fun hall ↦ ?_
        rw [hall repository workspace params List.mem_cons_self] at hself
        cases hself
      · next hother =>
        rw [ih]
        refine ⟨fun hrest r w p hmem ↦ ?_, fun hall r w p hmem ↦
          hall r w p (List.mem_cons_of_mem _ hmem)⟩
        rcases List.mem_cons.mp hmem with heq | hmem
        · obtain ⟨rfl, rfl, rfl⟩ := Action.runWorkspace.inj heq
          exact Bool.not_eq_true _ ▸ hother
        · exact hrest r w p hmem

/-- An accepted configuration passed the check. -/
theorem parse_eq_ok {shown : Shown} {safeLoad : Str → Except Str Yaml} {text : Str}
    {config : Config} (h : parse shown safeLoad text = .ok config) :
    ∃ fields, safeLoad text = .ok (.mapping fields) ∧
      parseTrigger shown (Yaml.get fields (str "trigger")) = .ok config.trigger ∧
      parseActions shown (Yaml.get fields (str "actions")) = .ok config.actions ∧
      rejectSelfTrigger config.trigger config.actions = .ok () := by
  unfold parse at h
  split at h
  · cases h
  · next doc hload =>
    unfold parseTree at h
    split at h
    · next fields =>
      obtain ⟨_, _, h⟩ := bind_ok h
      obtain ⟨name, hname, h⟩ := bind_ok h
      obtain ⟨trigger, htrigger, h⟩ := bind_ok h
      obtain ⟨actions, hactions, h⟩ := bind_ok h
      obtain ⟨_, hreject, h⟩ := bind_ok h
      rw [← Except.ok.inj h]
      exact ⟨fields, hload, htrigger, hactions, hreject⟩
    · cases h

/-- A job that the trigger's status allows and that has the names of an action. -/
theorem exists_allowed (trigger : Trigger) (repository workspace : Str)
    (hterminal : ∀ status ∈ trigger.status, JobStatus.isTerminal status = true) :
    ∃ job : Job, job.repository = repository ∧ job.workspace = workspace ∧
      job.status.isTerminal = true ∧ trigger.status.all (· == job.status) = true := by
  cases hstatus : trigger.status with
  | none => exact ⟨⟨repository, workspace, .complete, none, 0, false⟩, rfl, rfl, rfl, rfl⟩
  | some status =>
    exact ⟨⟨repository, workspace, status, none, 0, false⟩, rfl, rfl, hterminal status hstatus,
      beq_self_eq_true status⟩

/-- What follows a check that raises. -/
theorem raiseIf_ok {α : Type} {p : Prop} [Decidable p] {e : Exc} {f : PUnit → Except Exc α}
    {a : α} (h : (if p then throw e >>= f else f ⟨⟩) = .ok a) : ¬ p ∧ f ⟨⟩ = .ok a := by
  split at h
  · cases h
  · next hp => exact ⟨hp, h⟩

/-- The status of an accepted trigger is terminal. -/
theorem parseTrigger_terminal {shown : Shown} {raw : Yaml} {trigger : Trigger}
    (h : parseTrigger shown raw = .ok trigger) :
    ∀ status ∈ trigger.status, JobStatus.isTerminal status = true := by
  unfold parseTrigger at h
  split at h
  · obtain ⟨_, h⟩ := raiseIf_ok h
    obtain ⟨_, _, h⟩ := bind_ok h
    obtain ⟨_, h⟩ := raiseIf_ok h
    rw [← Except.ok.inj h]
    intro status hstatus
    have hmem := List.mem_of_find?_eq_some hstatus
    simp only [List.mem_cons, List.not_mem_nil, or_false] at hmem
    rcases hmem with rfl | rfl | rfl <;> rfl
  · cases h

variable {shown : Shown} {safeLoad : Str → Except Str Yaml} {text : Str} {config : Config}

/-- An accepted configuration never matches what it runs just when its blank fields are guarded. -/
theorem neverSelfMatches_iff (h : parse shown safeLoad text = .ok config) :
    NeverSelfMatches config ↔ BlankGuarded config := by
  obtain ⟨fields, _, htrigger, _, hreject⟩ := parse_eq_ok h
  have hchecked := rejectSelfTrigger_eq_ok.mp hreject
  constructor
  · intro hnever repository workspace params hmem
    obtain ⟨job, hrepository, hworkspace, hstatus, hallowed⟩ := exists_allowed config.trigger
      repository workspace (parseTrigger_terminal htrigger)
    have hmiss := hnever _ _ _ hmem job hrepository hworkspace hstatus hallowed
    rw [triggerMatches, hallowed, hrepository, hworkspace, Bool.and_true,
      Bool.and_eq_false_iff] at hmiss
    constructor
    · intro hblank
      have hmatch : fieldMatches config.trigger.repository repository = true := by
        rw [fieldMatches_eq, hblank, Bool.or_true]
      rcases hmiss with hmiss | hmiss
      · rw [hmatch] at hmiss
        cases hmiss
      · exact fieldMatches_eq_false.mp hmiss
    · intro hblank
      have hmatch : fieldMatches config.trigger.workspace workspace = true := by
        rw [fieldMatches_eq, hblank, Bool.or_true]
      rcases hmiss with hmiss | hmiss
      · exact fieldMatches_eq_false.mp hmiss
      · rw [hmatch] at hmiss
        cases hmiss
  · intro hguarded repository workspace params hmem job hrepository hworkspace _ _
    obtain ⟨hguardRepository, hguardWorkspace⟩ := hguarded _ _ _ hmem
    have hself := hchecked _ _ _ hmem
    rw [triggerMatches, hrepository, hworkspace, fieldMatches_eq, fieldMatches_eq]
    cases hblankRepository : isBlank config.trigger.repository with
    | true =>
      have hother := fieldMatches_eq_false.mpr (hguardRepository hblankRepository)
      rw [fieldMatches_eq] at hother
      rw [hother, Bool.and_false, Bool.false_and]
    | false =>
      cases hblankWorkspace : isBlank config.trigger.workspace with
      | true =>
        have hother := fieldMatches_eq_false.mpr (hguardWorkspace hblankWorkspace)
        rw [fieldMatches_eq, hblankRepository] at hother
        rw [hother, Bool.false_and, Bool.false_and]
      | false =>
        rw [Bool.or_false, Bool.or_false, Bool.and_comm (isNoneOr _ repository), hself,
          Bool.false_and]

theorem neverSelfMatches_iff_relay :
    NeverSelfMatches relayAB.config ↔ BlankGuarded relayAB.config :=
  neverSelfMatches_iff relayAB.accepted

/-- Runs `r/x` for every job that ends. -/
def blankTree : Yaml :=
  .mapping [(.text (str "name"), .text (str "a")),
    (.text (str "trigger"), .mapping [(.text (str "type"), .text (str "job_complete")),
      (.text (str "repository"), .text []), (.text (str "workspace"), .text [])]),
    (.text (str "actions"), .list [.mapping [(.text (str "type"), .text (str "run_workspace")),
      (.text (str "repository"), .text (str "r")), (.text (str "workspace"), .text (str "x"))]])]

def blankText : Str :=
  str ("name: a\ntrigger:\n  type: job_complete\n  repository: \"\"\n  workspace: \"\"\n" ++
    "actions:\n  - type: run_workspace\n    repository: r\n    workspace: x\n")

def blankLoad (text : Str) : Except Str Yaml :=
  if text = blankText then .ok blankTree else .error (str "not the document")

def blankConfig : Config where
  name := str "a"
  enabled := true
  trigger := { repository := .text [], workspace := .text [], status := none }
  actions := [.runWorkspace (str "r") (str "x") []]

/-- An accepted document with empty names in its trigger matches the workspace that it runs. -/
theorem blank_selfMatches :
    parse plainShown blankLoad blankText = .ok blankConfig ∧ ¬ NeverSelfMatches blankConfig := by
  have hload : blankLoad blankText = .ok blankTree := if_pos rfl
  refine ⟨?_, fun hnever ↦ ?_⟩
  · rw [parse, hload]
    rfl
  · have hmiss := hnever (str "r") (str "x") [] List.mem_cons_self
      ⟨str "r", str "x", .complete, none, 0, false⟩ rfl rfl rfl rfl
    cases hmiss

end DatumSync.Automations
