import DatumSync.Automations.Firing
import DatumSync.Foundation.Cascade

/-!
# Loops of automations

A job causes the jobs that firing on it submits.  The runtime guard cuts a chain only where an
automation would fire on its own job, so with two automations a chain can go on forever exactly
when each runs a workspace the other one triggers on.
-/

namespace DatumSync.Automations

open Python Jobs Foundation

/-- A stored automation: its document was accepted. -/
structure Stored (shown : Shown) (safeLoad : Str → Except Str Yaml) where
  document : Str
  config : Config
  accepted : parse shown safeLoad document = .ok config
  enabled : Bool
  createdAt : ℕ

def Stored.row {shown : Shown} {safeLoad : Str → Except Str Yaml}
    (a : Stored shown safeLoad) : Automation :=
  ⟨a.config.name, a.config, a.enabled, a.createdAt⟩

/-- A workspace that `a` runs is one `b` triggers on, in some terminal status. -/
def Feeds (a b : Automation) : Prop :=
  ∃ repository workspace params status, .runWorkspace repository workspace params ∈
      a.config.actions ∧ status.isTerminal = true ∧
    triggerMatches b.config.trigger { repository, workspace, status, triggeredBy := none } = true

/-- Two automations of different names that feed each other. -/
structure Cycle (a b : Automation) : Prop where
  names : a.name ≠ b.name
  first : a.enabled = true
  second : b.enabled = true
  forth : Feeds a b
  back : Feeds b a

theorem Cycle.symm {a b : Automation} (h : Cycle a b) : Cycle b a :=
  ⟨h.names.symm, h.second, h.first, h.back, h.forth⟩

/-- A trigger looks at the workspace and the status only. -/
theorem triggerMatches_eq (trigger : Trigger) (job : Job) :
    triggerMatches trigger job = triggerMatches trigger
      { repository := job.repository, workspace := job.workspace, status := job.status,
        triggeredBy := none } := rfl

theorem automationTag_inj {a b : Str} (h : automationTag a = automationTag b) : a = b :=
  List.append_cancel_left h

theorem fires_iff {a : Automation} {job : Job} :
    fires a job = true ↔ a.enabled = true ∧ a.createdAt ≤ job.completedAt ∧
      triggerMatches a.config.trigger job = true ∧
        job.triggeredBy ≠ some (automationTag a.name) := by
  simp [fires, wouldLoop, and_assoc]

/-! ## What firing submits -/

theorem performFrom_length_le (name : Str) (succeeds : ℕ → Bool) (i : ℕ) (actions : List Action) :
    (performFrom name succeeds i actions).length ≤ actions.length := by
  induction actions generalizing i with
  | nil => exact le_rfl
  | cons action rest ih =>
    have hone : (if succeeds i then (submitted name action).toList else []).length ≤ 1 := by
      split
      · cases submitted name action with
      | none => exact Nat.zero_le 1
      | some new => exact le_rfl
      · exact Nat.zero_le _
    rw [performFrom, List.length_append, List.length_cons, Nat.add_comm rest.length]
    exact Nat.add_le_add hone (ih (i + 1))

theorem mem_performFrom {name : Str} {succeeds : ℕ → Bool} {i : ℕ} {actions : List Action}
    {job : Job} (h : job ∈ performFrom name succeeds i actions) :
    ∃ action ∈ actions, submitted name action = some job := by
  induction actions generalizing i with
  | nil => exact absurd h List.not_mem_nil
  | cons action rest ih =>
    rw [performFrom] at h
    rcases List.mem_append.mp h with h | h
    · split at h
      · exact ⟨action, List.mem_cons_self, Option.mem_toList.mp h⟩
      · exact absurd h List.not_mem_nil
    · obtain ⟨other, hother, hjob⟩ := ih h
      exact ⟨other, List.mem_cons_of_mem _ hother, hjob⟩

theorem performFrom_mem {name : Str} {i : ℕ} {actions : List Action} {action : Action} {job : Job}
    (haction : action ∈ actions) (hjob : submitted name action = some job) :
    job ∈ performFrom name (fun _ ↦ true) i actions := by
  induction actions generalizing i with
  | nil => exact absurd haction List.not_mem_nil
  | cons other rest ih =>
    rw [performFrom, if_pos rfl]
    rcases List.mem_cons.mp haction with rfl | h
    · exact List.mem_append_left _ (Option.mem_toList.mpr hjob)
    · exact List.mem_append_right _ (ih h)

variable {automations : List Automation}

def actionCount (automations : List Automation) : ℕ :=
  (automations.map fun a ↦ a.config.actions.length).sum

theorem spawned_length_le (succeeds : Str → ℕ → Bool) (job : Job) :
    (spawned automations succeeds job).length ≤ actionCount automations := by
  unfold spawned actionCount
  induction automations with
  | nil => exact le_rfl
  | cons a rest ih =>
    rw [List.map_cons, List.sum_cons, List.filter_cons]
    split
    · rw [List.flatMap_cons, List.length_append]
      exact Nat.add_le_add (performFrom_length_le _ _ _ _) ih
    · exact ih.trans (Nat.le_add_left _ _)

/-! ## Causes -/

/-- What decides which automations fire on a job when it ends. -/
def kind (job : Job) : Str × Str × Option Str := (job.repository, job.workspace, job.triggeredBy)

/-- A job of the one kind can make an automation submit a job of the other. -/
def Causes (automations : List Automation) (before after : Str × Str × Option Str) : Prop :=
  ∃ a ∈ automations, ∃ job action new, kind job = before ∧ job.status.isTerminal = true ∧
    fires a job = true ∧ action ∈ a.config.actions ∧ submitted a.name action = some new ∧
    kind new = after

theorem causes_spawned {succeeds : Str → ℕ → Bool} {job new : Job}
    (hterminal : job.status.isTerminal = true) (h : new ∈ spawned automations succeeds job) :
    Causes automations (kind job) (kind new) := by
  obtain ⟨a, ha, hnew⟩ := List.mem_flatMap.mp h
  obtain ⟨hmem, hfires⟩ := List.mem_filter.mp ha
  obtain ⟨action, haction, hsubmitted⟩ := mem_performFrom hnew
  exact ⟨a, hmem, job, action, new, rfl, hterminal, hfires, haction, hsubmitted, rfl⟩

/-- Two links of a chain: the second automation is another one, which the first one feeds. -/
theorem feeds_of_causes {a b : Automation} {action : Action} {new job : Job}
    (haction : action ∈ a.config.actions) (hnew : submitted a.name action = some new)
    (hkind : kind job = kind new) (hterminal : job.status.isTerminal = true)
    (hfires : fires b job = true) : a.name ≠ b.name ∧ Feeds a b := by
  obtain ⟨-, -, hmatches, hguard⟩ := fires_iff.mp hfires
  obtain ⟨hrepository, hrest⟩ := Prod.mk.inj hkind
  obtain ⟨hworkspace, htriggered⟩ := Prod.mk.inj hrest
  cases action with
  | httpRequest url method headers body => cases hnew
  | runWorkspace repository workspace params =>
    obtain rfl := Option.some.inj hnew
    refine ⟨fun hname ↦ hguard ?_, repository, workspace, params, job.status, haction, hterminal,
      ?_⟩
    · rw [htriggered, hname]
    · rw [triggerMatches_eq, hrepository, hworkspace] at hmatches
      exact hmatches

/-- Of three members of a list of at most two, the outer ones agree when both differ from the
middle one. -/
theorem eq_of_length_le_two {α : Type*} {l : List α} (hlength : l.length ≤ 2) {x y z : α}
    (hx : x ∈ l) (hy : y ∈ l) (hz : z ∈ l) (hxy : x ≠ y) (hyz : y ≠ z) : x = z := by
  match l, hlength with
  | [], _ => exact absurd hx List.not_mem_nil
  | [a], _ =>
    rw [List.mem_singleton] at hx hz
    rw [hx, hz]
  | [a, b], _ =>
    simp only [List.mem_cons, List.not_mem_nil, or_false] at hx hy hz
    grind

/-- Without a cycle no chain of causes among two automations has three links. -/
theorem endsWithin_two (hlength : automations.length ≤ 2)
    (hcycle : ¬ ∃ a ∈ automations, ∃ b ∈ automations, Cycle a b)
    (k : Str × Str × Option Str) : EndsWithin (Causes automations) 2 k := by
  rintro _ ⟨a, ha, job, action, new, -, -, hfires, haction, hnew, rfl⟩
  rintro _ ⟨b, hb, job', action', new', hkind', hterminal', hfires', haction', hnew', rfl⟩
  rintro _ ⟨c, hc, job'', action'', new'', hkind'', hterminal'', hfires'', -, -, rfl⟩
  obtain ⟨hab, hfeeds⟩ := feeds_of_causes haction hnew hkind' hterminal' hfires'
  obtain ⟨hbc, hfeeds'⟩ := feeds_of_causes haction' hnew' hkind'' hterminal'' hfires''
  obtain rfl : a = c := eq_of_length_le_two hlength ha hb hc
    (fun h ↦ hab (congrArg Automation.name h)) fun h ↦ hbc (congrArg Automation.name h)
  exact hcycle ⟨a, ha, b, hb, hab, (fires_iff.mp hfires).1, (fires_iff.mp hfires').1, hfeeds,
    hfeeds'⟩

/-! ## Without a cycle -/

def waiting (jobs : List Job) : List (Str × Str × Option Str) :=
  (jobs.filter fun job ↦ !job.considered).map kind

theorem waiting_append (first second : List Job) :
    waiting (first ++ second) = waiting first ++ waiting second := by
  rw [waiting, List.filter_append, List.map_append, waiting, waiting]

theorem waiting_singleton (job : Job) :
    waiting [job] = if job.considered then [] else [kind job] := by
  rw [waiting, List.filter_singleton]
  cases job.considered <;> rfl

/-- A job is one entry of the table. -/
theorem waiting_set {jobs : List Job} {i : ℕ} {old : Job} (h : jobs[i]? = some old) (job : Job) :
    ∃ before after, waiting jobs = before ++ waiting [old] ++ after ∧
      waiting (jobs.set i job) = before ++ waiting [job] ++ after := by
  obtain ⟨hi, hold⟩ := List.getElem?_eq_some_iff.mp h
  refine ⟨waiting (jobs.take i), waiting (jobs.drop (i + 1)), ?_, ?_⟩
  · rw [← waiting_append, ← waiting_append, List.append_assoc, List.singleton_append, ← hold,
      ← List.drop_eq_getElem_cons hi, List.take_append_drop]
  · rw [List.set_eq_take_append_cons_drop, if_pos hi, ← waiting_append, ← waiting_append,
      List.append_assoc, List.singleton_append]

theorem performFrom_fresh {name : Str} {succeeds : ℕ → Bool} {i : ℕ} {actions : List Action}
    {job : Job} (h : job ∈ performFrom name succeeds i actions) :
    job.considered = false ∧ job.status.isTerminal = false ∧
      job.triggeredBy = some (automationTag name) := by
  obtain ⟨action, -, hjob⟩ := mem_performFrom h
  cases action with
  | httpRequest url method headers body => cases hjob
  | runWorkspace repository workspace params =>
    obtain rfl := Option.some.inj hjob
    exact ⟨rfl, rfl, rfl⟩

theorem waiting_spawned (succeeds : Str → ℕ → Bool) (job : Job) :
    waiting (spawned automations succeeds job) = (spawned automations succeeds job).map kind := by
  unfold waiting
  rw [List.filter_eq_self.mpr]
  intro new hnew
  obtain ⟨a, -, hfire⟩ := List.mem_flatMap.mp hnew
  rw [(performFrom_fresh hfire).1]
  rfl

/-- What has been created, with what the waiting jobs can still cause. -/
noncomputable def potential (automations : List Automation) (s : FiringState) : ℕ :=
  s.created + debt (Causes automations) (actionCount automations) (waiting s.jobs)

/-- The price of a step: only submissions from outside cost something. -/
def FiringAction.cost (price : ℕ) : FiringAction → ℕ
  | submit .. => price
  | _ => 0

/-- Only a submission from outside raises the potential. -/
theorem potential_step {n : ℕ} (hends : ∀ k, EndsWithin (Causes automations) n k)
    {s t : FiringState} {action : FiringAction} (h : firingStep automations s action = some t) :
    potential automations t ≤
      potential automations s + action.cost (yield (actionCount automations) n) := by
  cases action with
  | submit repository workspace triggeredBy =>
    obtain rfl := Option.some.inj h
    unfold potential FiringAction.cost
    dsimp only
    rw [waiting_append, debt_append, ← Nat.add_assoc]
    exact Nat.add_le_add_left (debt_singleton_le _ (hends _)) _
  | complete i status completedAt =>
    unfold FiringAction.cost
    rw [Nat.add_zero]
    unfold firingStep at h
    dsimp only at h
    split at h
    · next job hjob =>
      split at h
      · obtain rfl := Option.some.inj h
        obtain ⟨before, after, hs, ht⟩ := waiting_set hjob { job with status, completedAt }
        unfold potential
        rw [hs, ht, waiting_singleton, waiting_singleton]
        exact Nat.le_refl _
      · cases h
    · cases h
  | consider i succeeds =>
    unfold FiringAction.cost
    rw [Nat.add_zero]
    unfold firingStep at h
    dsimp only at h
    split at h
    · next job hjob =>
      split at h
      · next hready =>
        obtain rfl := Option.some.inj h
        obtain ⟨hterminal, hwaits⟩ := Bool.and_eq_true_iff.mp hready
        obtain ⟨before, after, hs, ht⟩ := waiting_set hjob { job with considered := true }
        have hjobDebt : waiting [job] = [kind job] := by
          rw [waiting_singleton, if_neg (by simpa using hwaits)]
        have hcaused : ∀ k ∈ (spawned automations succeeds job).map kind,
            Causes automations (kind job) k := by
          intro k hk
          obtain ⟨new, hnew, rfl⟩ := List.mem_map.mp hk
          exact causes_spawned hterminal hnew
        have hpaid := length_add_debt_le (hends (kind job))
          ((List.length_map _).trans_le (spawned_length_le succeeds job)) hcaused
        rw [List.length_map] at hpaid
        unfold potential
        dsimp only
        rw [waiting_append, waiting_spawned, hs, ht, hjobDebt]
        simp only [debt_append]
        have hnone : debt (Causes automations) (actionCount automations)
            (waiting [{ job with considered := true }]) = 0 := rfl
        omega
      · cases h
    · cases h

theorem sum_cost (price : ℕ) (actions : List FiringAction) :
    (actions.map (FiringAction.cost price)).sum =
      actions.countP FiringAction.isSubmit * price := by
  induction actions with
  | nil => exact (Nat.zero_mul price).symm
  | cons action rest ih =>
    rw [List.map_cons, List.sum_cons, ih, List.countP_cons, Nat.add_mul, Nat.add_comm]
    cases action with
    | submit repository workspace triggeredBy =>
      rw [if_pos (by rfl), Nat.one_mul]
      rfl
    | _ =>
      rw [if_neg (by exact Bool.false_ne_true), Nat.zero_mul]
      rfl

/-- Chains of bounded length make the automations loop free. -/
theorem loopFree_of_endsWithin {n : ℕ} (hends : ∀ k, EndsWithin (Causes automations) n k) :
    LoopFree automations := by
  intro outside
  refine ⟨outside * yield (actionCount automations) n, fun actions s hrun houtside ↦ ?_⟩
  have hpotential := (firingMachine automations).potential_run
    (fun _ _ _ h ↦ potential_step hends h) hrun
  calc s.created ≤ potential automations s := Nat.le_add_right _ _
    _ ≤ potential automations firingStart +
        actions.countP FiringAction.isSubmit * yield (actionCount automations) n := by
        rw [← sum_cost]
        exact hpotential
    _ = actions.countP FiringAction.isSubmit * yield (actionCount automations) n :=
        Nat.zero_add _
    _ ≤ outside * yield (actionCount automations) n := Nat.mul_le_mul_right _ houtside

/-! ## With a cycle -/

/-- An unfinished job that can end so that `a` fires on it. -/
def Hot (s : FiringState) (a : Automation) : Prop :=
  ∃ job ∈ s.jobs, job.status.isTerminal = false ∧ job.considered = false ∧
    job.triggeredBy ≠ some (automationTag a.name) ∧
    ∃ status, status.isTerminal = true ∧ triggerMatches a.config.trigger { job with status } = true

/-- The job ends and `a` fires on it; the job it submits is one `b` can fire on. -/
theorem Hot.next {s : FiringState} {a b : Automation} (ha : a ∈ automations) (hcycle : Cycle a b)
    (hhot : Hot s a) :
    ∃ actions t, (firingMachine automations).run s actions = some t ∧
      actions.countP FiringAction.isSubmit = 0 ∧ s.created < t.created ∧ Hot t b := by
  obtain ⟨job, hmem, hopen, hwaits, hguard, status, hterminal, hmatches⟩ := hhot
  obtain ⟨i, hi⟩ := List.mem_iff_getElem?.mp hmem
  obtain ⟨repository, workspace, params, status', haction, hterminal', hmatches'⟩ := hcycle.forth
  have hfires : fires a { job with status, completedAt := a.createdAt } = true :=
    fires_iff.mpr ⟨hcycle.first, le_rfl, hmatches, hguard⟩
  let new : Job :=
    { repository, workspace, status := .queued, triggeredBy := some (automationTag a.name) }
  have hnew : new ∈ spawned automations (fun _ _ ↦ true)
      { job with status, completedAt := a.createdAt } :=
    List.mem_flatMap.mpr ⟨a, List.mem_filter.mpr ⟨ha, hfires⟩, performFrom_mem haction rfl⟩
  have hcomplete : firingStep automations s (.complete i status a.createdAt) =
      some { s with jobs := s.jobs.set i { job with status, completedAt := a.createdAt } } := by
    unfold firingStep
    dsimp only
    rw [hi]
    exact if_pos (by rw [hopen, hterminal]; rfl)
  have hset : (s.jobs.set i { job with status, completedAt := a.createdAt })[i]? =
      some { job with status, completedAt := a.createdAt } := by
    obtain ⟨hlt, -⟩ := List.getElem?_eq_some_iff.mp hi
    exact List.getElem?_set_self hlt
  have hconsider : firingStep automations
      { s with jobs := s.jobs.set i { job with status, completedAt := a.createdAt } }
      (.consider i fun _ _ ↦ true) = some {
        jobs := (s.jobs.set i { job with status, completedAt := a.createdAt }).set i
          { job with status, completedAt := a.createdAt, considered := true } ++
          spawned automations (fun _ _ ↦ true) { job with status, completedAt := a.createdAt }
        created := s.created + (spawned automations (fun _ _ ↦ true)
          { job with status, completedAt := a.createdAt }).length } := by
    unfold firingStep
    dsimp only
    rw [hset]
    exact if_pos (by rw [hterminal, hwaits]; rfl)
  refine ⟨[.complete i status a.createdAt, .consider i fun _ _ ↦ true], _,
    (firingMachine automations).run_cons_eq_some.mpr ⟨_, hcomplete,
      (firingMachine automations).run_cons_eq_some.mpr ⟨_, hconsider, rfl⟩⟩, rfl,
    Nat.lt_add_of_pos_right (List.length_pos_of_mem hnew), new, List.mem_append_right _ hnew, rfl,
    rfl, fun h ↦ ?_, status', hterminal', hmatches'⟩
  exact hcycle.names (automationTag_inj (Option.some.inj h))

/-- Two automations that feed each other create as many jobs as one likes. -/
theorem Hot.forever {s : FiringState} {a b : Automation} (ha : a ∈ automations)
    (hb : b ∈ automations) (hcycle : Cycle a b) (hhot : Hot s a) (n : ℕ) :
    ∃ actions t, (firingMachine automations).run s actions = some t ∧
      actions.countP FiringAction.isSubmit = 0 ∧ s.created + n ≤ t.created := by
  induction n generalizing s a b with
  | zero => exact ⟨[], s, rfl, rfl, le_rfl⟩
  | succ n ih =>
    obtain ⟨first, t, hfirst, hnone, hmore, hnext⟩ := hhot.next ha hcycle
    obtain ⟨second, u, hsecond, hnone', hmore'⟩ := ih hb ha hcycle.symm hnext
    refine ⟨first ++ second, u,
      (firingMachine automations).run_append_eq_some.mpr ⟨t, hfirst, hsecond⟩, ?_, ?_⟩
    · rw [List.countP_append, hnone, hnone']
    · omega

/-- One job from outside starts a cycle. -/
theorem not_loopFree_of_cycle {a b : Automation} (ha : a ∈ automations) (hb : b ∈ automations)
    (hcycle : Cycle a b) : ¬ LoopFree automations := by
  intro hfree
  obtain ⟨bound, hbound⟩ := hfree 1
  obtain ⟨repository, workspace, params, status, -, hterminal, hmatches⟩ := hcycle.back
  let s : FiringState :=
    { jobs := [{ repository, workspace, status := .queued, triggeredBy := none }], created := 0 }
  have hhot : Hot s a :=
    ⟨_, List.mem_cons_self, rfl, rfl, nofun, status, hterminal, hmatches⟩
  obtain ⟨actions, t, hrun, hnone, hmany⟩ := hhot.forever ha hb hcycle (bound + 1)
  have hstart : (firingMachine automations).run firingStart
      (.submit repository workspace none :: actions) = some t :=
    (firingMachine automations).run_cons_eq_some.mpr ⟨s, rfl, hrun⟩
  have hle := hbound _ t hstart (by
    rw [List.countP_cons, hnone]
    exact le_rfl)
  have hzero : s.created = 0 := rfl
  omega

variable {shown : Shown} {safeLoad : Str → Except Str Yaml}

/-- One or two stored automations create a bounded number of jobs exactly when no two of them,
both enabled, run a workspace the other triggers on. -/
theorem loopFree_iff {store : List (Stored shown safeLoad)} (hlength : store.length ≤ 2) :
    LoopFree (store.map Stored.row) ↔
      ¬ ∃ a ∈ store, ∃ b ∈ store, Cycle a.row b.row := by
  constructor
  · rintro hfree ⟨a, ha, b, hb, hcycle⟩
    exact not_loopFree_of_cycle (List.mem_map_of_mem ha) (List.mem_map_of_mem hb) hcycle hfree
  · intro hcycle
    refine loopFree_of_endsWithin (n := 2)
      (endsWithin_two (by rwa [List.length_map]) ?_)
    rintro ⟨_, hrow, _, hrow', h⟩
    obtain ⟨a, ha, rfl⟩ := List.mem_map.mp hrow
    obtain ⟨b, hb, rfl⟩ := List.mem_map.mp hrow'
    exact hcycle ⟨a, ha, b, hb, h⟩

/-! ## Two automations that run each other's workspace -/

/-- An automation that runs the workspace `run` of `r` when `watched` of `r` ends. -/
def relayTree (name watched run : String) : Yaml :=
  .mapping [(.text (str "name"), .text (str name)),
    (.text (str "trigger"), .mapping [(.text (str "type"), .text (str "job_complete")),
      (.text (str "repository"), .text (str "r")),
      (.text (str "workspace"), .text (str watched))]),
    (.text (str "actions"), .list [.mapping [(.text (str "type"), .text (str "run_workspace")),
      (.text (str "repository"), .text (str "r")), (.text (str "workspace"), .text (str run))]])]

/-- The same as a YAML document. -/
def relayText (name watched run : String) : Str :=
  str "name: " ++ str name ++
    str "\ntrigger:\n  type: job_complete\n  repository: r\n  workspace: " ++ str watched ++
    str "\nactions:\n  - type: run_workspace\n    repository: r\n    workspace: " ++ str run ++
    str "\n"

/-- What loading the three documents gives. -/
def relayLoad (text : Str) : Except Str Yaml :=
  if text = relayText "a" "x" "y" then .ok (relayTree "a" "x" "y")
  else if text = relayText "b" "y" "x" then .ok (relayTree "b" "y" "x")
  else if text = relayText "c" "y" "z" then .ok (relayTree "c" "y" "z")
  else .error (str "not one of the documents")

def plainShown : Shown where
  strOf
    | .text s => s
    | _ => []
  reprOf
    | .text s => s
    | _ => []
  strOf_text s := (rfl : s = s)

def relayConfig (name watched run : String) : Config where
  name := str name
  enabled := true
  trigger := { repository := .text (str "r"), workspace := .text (str watched), status := none }
  actions := [.runWorkspace (str "r") (str run) []]

theorem relayLoad_ab : relayLoad (relayText "a" "x" "y") = .ok (relayTree "a" "x" "y") :=
  if_pos rfl

theorem relayLoad_ba : relayLoad (relayText "b" "y" "x") = .ok (relayTree "b" "y" "x") :=
  (if_neg (by decide +kernel)).trans (if_pos rfl)

theorem relayLoad_yz : relayLoad (relayText "c" "y" "z") = .ok (relayTree "c" "y" "z") :=
  (if_neg (by decide +kernel)).trans ((if_neg (by decide +kernel)).trans (if_pos rfl))

/-- Runs `r/y` when `r/x` ends. -/
def relayAB : Stored plainShown relayLoad where
  document := relayText "a" "x" "y"
  config := relayConfig "a" "x" "y"
  accepted := by
    rw [parse, relayLoad_ab]
    rfl
  enabled := true
  createdAt := 0

/-- Runs `r/x` when `r/y` ends. -/
def relayBA : Stored plainShown relayLoad where
  document := relayText "b" "y" "x"
  config := relayConfig "b" "y" "x"
  accepted := by
    rw [parse, relayLoad_ba]
    rfl
  enabled := true
  createdAt := 0

/-- Runs `r/z` when `r/y` ends. -/
def relayYZ : Stored plainShown relayLoad where
  document := relayText "c" "y" "z"
  config := relayConfig "c" "y" "z"
  accepted := by
    rw [parse, relayLoad_yz]
    rfl
  enabled := true
  createdAt := 0

/-- No workspace that the second automation runs starts the first. -/
theorem not_feeds_relayYZ : ¬ Feeds relayYZ.row relayAB.row := by
  rintro ⟨repository, workspace, params, status, hrun, -, hmatches⟩
  obtain ⟨rfl, rfl, rfl⟩ := Action.runWorkspace.inj (List.mem_singleton.mp hrun)
  cases status <;> exact absurd hmatches (by decide +kernel)

/-- The second automation goes on where the first ends. -/
theorem loopFree_iff_chain : LoopFree ([relayAB, relayYZ].map Stored.row) := by
  refine (loopFree_iff (by decide)).mpr ?_
  rintro ⟨a, ha, b, hb, hcycle⟩
  rw [List.mem_pair] at ha hb
  obtain rfl | rfl := ha <;> obtain rfl | rfl := hb
  · exact hcycle.names rfl
  · exact not_feeds_relayYZ hcycle.back
  · exact not_feeds_relayYZ hcycle.forth
  · exact hcycle.names rfl

/-- The two documents are accepted, and together they submit jobs without end. -/
theorem relays_not_loopFree : ¬ LoopFree ([relayAB, relayBA].map Stored.row) := by
  have hcycle : Cycle relayAB.row relayBA.row :=
    ⟨by decide +kernel, rfl, rfl,
      ⟨str "r", str "y", [], .complete, List.mem_cons_self, rfl, by decide +kernel⟩,
      ⟨str "r", str "x", [], .complete, List.mem_cons_self, rfl, by decide +kernel⟩⟩
  exact not_loopFree_of_cycle List.mem_cons_self
    (List.mem_cons_of_mem _ List.mem_cons_self) hcycle

end DatumSync.Automations
