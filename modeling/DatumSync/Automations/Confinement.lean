import DatumSync.Automations.Delivery
import Mathlib.Algebra.Order.BigOperators.Group.List
import Mathlib.Algebra.Order.Group.Nat

/-!
# What an automation reaches against what its writer could

A document is checked when it is written; what it reaches is decided when it is fired, by
`_matches`, which takes a false value for no filter.  The two differ on a trigger whose repository
is the empty text: it is checked as a name and matches every repository.
-/

namespace DatumSync.Automations

open Python Jobs Foundation Api

/-- Held to no repository: the wildcard, or an administrator. -/
def Unconfined (writer : Principal) : Prop := allRepos writer = true ∨ writer.isAdmin = true

/-- What a document submits, and what it is fired on, its writer was allowed. -/
def Confined (writer : Principal) (config : Config) : Prop :=
  Unconfined writer ∨ config.actions.all (actionAllowed writer) = true ∧
    ∀ job : Job, triggerMatches config.trigger job = true →
      allowsRepo writer (.text job.repository) = true

/-- Every stored document is confined, and so is every firing and every submission there was. -/
structure Deliveries.Confining (s : Deliveries) : Prop where
  stored : ∀ a ∈ s.automations, Confined a.writer a.automation.config
  fired : ∀ f ∈ s.fired, Unconfined f.writer ∨ allowsRepo f.writer (.text f.row.repository) = true
  submitted : ∀ x ∈ s.submitted,
    Unconfined x.writer ∨ allowsRepo x.writer (.text x.job.repository) = true

/-- A field of a trigger that some job matches: a text or false. -/
def canMatch (value : Yaml) : Bool := value.isText || !value.truthy

/-- The repository of a trigger is the empty text, and its workspace can match. -/
def watchesAll (trigger : Trigger) : Bool :=
  trigger.repository.eqText [] && canMatch trigger.workspace

variable (view : Rendering) (safeLoad : Str → Except Str Yaml)

/-- A document that gets stored comes from an unconfined caller or does not watch everything by the
empty name. -/
def StoresNamed (s : Deliveries) : DeliveryAction → Prop
  | .create caller text true => ∀ config, checkDocument view safeLoad caller text = .ok config →
      Unconfined caller ∨ watchesAll config.trigger = false
  | .write u true => ∀ pending config, s.edits u = some pending →
      pending.edit = .replace config → pending.id ∈ s.automations.map Entry.id →
        Unconfined pending.caller ∨ watchesAll config.trigger = false
  | _ => True

/-! ## The check against the match -/

variable {view safeLoad} {caller : Principal} {config : Config}

/-- A scope without the wildcard leaves some repository out. -/
theorem exists_not_allowed (h : allRepos caller = false) :
    ∃ repository, allowsRepo caller (.text repository) = false := by
  let long := List.replicate ((caller.repoScope.map List.length).sum + 1) (cp 'x')
  refine ⟨long, ?_⟩
  rw [allowsRepo, List.any_eq_false]
  intro pattern hpattern hmatch
  have hstar : pattern ≠ str "*" := by
    rintro rfl
    exact of_decide_eq_false h hpattern
  have hshort : pattern.length < long.length := by
    rw [List.length_replicate, Nat.lt_succ_iff]
    exact List.single_le_sum (fun _ _ ↦ Nat.zero_le _) _ (List.mem_map_of_mem hpattern)
  rw [scopeMatches, if_neg hstar] at hmatch
  split at hmatch
  · have heq : long = pattern.take (pattern.length - 2) :=
      Yaml.text.inj (Yaml.eqText_iff.mp hmatch)
    rw [heq] at hshort
    exact absurd hshort (Nat.not_lt.mpr (List.length_take_le' _ _))
  · have heq : long = pattern := Yaml.text.inj (Yaml.eqText_iff.mp hmatch)
    exact absurd (congrArg List.length heq) hshort.ne'

theorem canMatch_iff {value : Yaml} :
    canMatch value = true ↔ ∃ name, fieldMatches value name = true := by
  rw [canMatch, Bool.or_eq_true]
  constructor
  · rintro (htext | hfalse)
    · cases value with
      | text name => exact ⟨name, Bool.or_eq_true_iff.mpr (.inr (Yaml.eqText_iff.mpr rfl))⟩
      | _ => cases htext
    · exact ⟨[], Bool.or_eq_true_iff.mpr (.inl hfalse)⟩
  · rintro ⟨name, hmatch⟩
    rcases Bool.or_eq_true_iff.mp hmatch with hfalse | hname
    · exact .inr hfalse
    · rw [Yaml.eqText_iff.mp hname]
      exact .inl rfl

/-- A trigger that watches everything matches a job of any repository. -/
theorem exists_matching {trigger : Trigger} (h : watchesAll trigger = true) (repository : Str) :
    ∃ job : Job, job.repository = repository ∧ triggerMatches trigger job = true := by
  rw [watchesAll, Bool.and_eq_true, Yaml.eqText_iff] at h
  obtain ⟨hrepository, hworkspace⟩ := h
  have hstatus : trigger.status.all (· == trigger.status.getD .complete) = true := by
    cases trigger.status with
    | none => rfl
    | some status => exact beq_self_eq_true status
  obtain ⟨workspace, hworkspace⟩ := canMatch_iff.mp hworkspace
  refine ⟨⟨repository, workspace, trigger.status.getD .complete, none, 0, false⟩, rfl, ?_⟩
  rw [triggerMatches, hrepository, hworkspace, hstatus]
  rfl

/-- A document that passes the check is confined but for the empty name. -/
theorem confined_iff (hcheck : requireAutomationScope view caller config = .ok ()) :
    Confined caller config ↔ Unconfined caller ∨ watchesAll config.trigger = false := by
  rw [requireAutomationScope_eq_ok] at hcheck
  obtain ⟨hwatch, hactions⟩ := hcheck
  rw [Confined]
  constructor
  · rintro (hwriter | ⟨-, hjobs⟩)
    · exact .inl hwriter
    · by_contra hneither
      rw [not_or, Bool.not_eq_false] at hneither
      have hall : allRepos caller = false := by
        rw [← Bool.not_eq_true]
        exact fun hall ↦ hneither.1 (.inl hall)
      obtain ⟨repository, hrefused⟩ := exists_not_allowed hall
      obtain ⟨job, rfl, hmatch⟩ := exists_matching hneither.2 repository
      rw [hjobs job hmatch] at hrefused
      cases hrefused
  · rintro (hwriter | hnamed)
    · exact .inl hwriter
    · by_cases hwriter : Unconfined caller
      · exact .inl hwriter
      · refine .inr ⟨hactions, fun job hmatch ↦ ?_⟩
        rw [Unconfined, not_or, Bool.not_eq_true, Bool.not_eq_true] at hwriter
        rw [triggerMatches, Bool.and_eq_true, Bool.and_eq_true] at hmatch
        obtain ⟨⟨hrepository, hworkspace⟩, -⟩ := hmatch
        rw [watchAllowed] at hwatch
        rw [fieldMatches, Bool.or_eq_true] at hrepository
        rcases hrepository with hfalse | hname
        · -- of the values that are false only the empty text passes the check
          have hempty : config.trigger.repository ≠ .text [] := by
            intro heq
            rw [watchesAll, heq, canMatch_iff.mpr ⟨_, hworkspace⟩] at hnamed
            cases hnamed
          cases hvalue : config.trigger.repository with
          | null =>
            rw [hvalue] at hwatch
            simp [Yaml.isNull, hwriter] at hwatch
          | text name =>
            rw [hvalue] at hfalse hempty
            cases name with
            | nil => exact absurd rfl hempty
            | cons c rest => cases hfalse
          | _ =>
            have hnotText : ∀ name, config.trigger.repository ≠ .text name := by
              intro name heq
              rw [hvalue] at heq
              cases heq
            have hrefused := allowsRepo_not_text hwriter.1 hnotText
            rw [if_neg (by simp [hvalue, Yaml.isNull]), hrefused] at hwatch
            cases hwatch
        · rw [Yaml.eqText_iff] at hname
          rw [hname] at hwatch
          exact hwatch

/-! ## Along a run -/

/-- The documents that a call is about to fire are confined. -/
def ConsiderStage.Carries : ConsiderStage → Prop
  | firing _ pending | recorded _ _ pending =>
    ∀ a ∈ pending, Confined a.writer a.automation.config
  | acting _ current left pending =>
    (∀ a ∈ pending, Confined a.writer a.automation.config) ∧
      (Unconfined current.writer ∨ left.all (actionAllowed current.writer) = true)
  | _ => True

variable (view) in
/-- What is stored, was fired, was submitted or is on its way is confined; a replacement on its way
has passed the check. -/
structure Deliveries.Carrying (s : Deliveries) : Prop extends Deliveries.Confining s where
  carries : ∀ c, (s.considers c).Carries
  checked : ∀ u pending config, s.edits u = some pending → pending.edit = .replace config →
    requireAutomationScope view pending.caller config = .ok ()

variable {s t : Deliveries} {a : DeliveryAction}

theorem checkDocument_eq_ok {text : Str}
    (h : checkDocument view safeLoad caller text = .ok config) :
    requireAutomationScope view caller config = .ok () := by
  rw [checkDocument] at h
  split at h
  · cases h
  · split at h
    · split at h <;> cases h
    · next parsed _ =>
      cases hcheck : requireAutomationScope view caller parsed with
      | error e =>
        rw [hcheck] at h
        cases h
      | ok u =>
        rw [hcheck] at h
        cases h
        exact hcheck

/-- A call goes on. -/
theorem Deliveries.Carrying.advance (hs : s.Carrying view) {c : ℕ} (phase : ConsiderStage)
    (hphase : phase.Carries) : (s.setConsider c phase).Carrying view where
  toConfining := ⟨hs.stored, hs.fired, hs.submitted⟩
  carries d := by
    change (Function.update s.considers c phase d).Carries
    rw [Function.update_apply]
    split
    · exact hphase
    · exact hs.carries d
  checked := hs.checked

/-- The jobs and the clock do not matter. -/
theorem Deliveries.Carrying.jobs (hs : s.Carrying view) (clock : ℕ) (jobs : List Job) :
    ({ s with clock := clock, jobs := jobs } : Deliveries).Carrying view :=
  ⟨⟨hs.stored, hs.fired, hs.submitted⟩, hs.carries, hs.checked⟩

theorem carrying_insert (hs : s.Carrying view) (hconfined : Confined caller config) :
    (s.insert caller config).Carrying view where
  stored a ha := by
    rcases List.mem_append.mp ha with hold | hnew
    · exact hs.stored a hold
    · rw [List.mem_singleton.mp hnew]
      exact hconfined
  fired := hs.fired
  submitted := hs.submitted
  carries := hs.carries
  checked := hs.checked

theorem carrying_setEdit (hs : s.Carrying view) {u : ℕ} {next : Option PendingEdit}
    (hnext : ∀ pending config, next = some pending → pending.edit = .replace config →
      requireAutomationScope view pending.caller config = .ok ()) :
    (s.setEdit u next).Carrying view where
  toConfining := ⟨hs.stored, hs.fired, hs.submitted⟩
  carries := hs.carries
  checked v pending config hv := by
    change Function.update s.edits u next v = some pending at hv
    rw [Function.update_apply] at hv
    split at hv
    · exact hnext pending config hv
    · exact hs.checked v pending config hv

/-- What a checked replacement stores. -/
theorem confined_apply (hs : s.Carrying view) {u : ℕ} {pending : PendingEdit}
    (hedit : s.edits u = some pending) {stored : Entry} (hstored : stored ∈ s.automations)
    (hnamed : ∀ config, pending.edit = .replace config → stored.id = pending.id →
      Unconfined pending.caller ∨ watchesAll config.trigger = false) :
    Confined (pending.apply stored).writer (pending.apply stored).automation.config := by
  rw [PendingEdit.apply]
  split
  · next hid =>
    split
    · next config hreplace =>
      exact (confined_iff (hs.checked u pending config hedit hreplace)).mpr
        (hnamed config hreplace hid)
    · exact hs.stored stored hstored
    · exact hs.stored stored hstored
  · exact hs.stored stored hstored

/-- A replacement that passes its checks is in the scope of its caller. -/
theorem check_eq_replace {id : ℕ} {change : Change}
    (h : s.check view safeLoad caller id change = .ok (.replace config)) :
    requireAutomationScope view caller config = .ok () := by
  cases change with
  | replace text =>
    rw [Deliveries.check] at h
    split at h
    · cases h
    · obtain ⟨_, -, h⟩ := bind_ok h
      obtain ⟨parsed, hdocument, h⟩ := bind_ok h
      cases h
      exact checkDocument_eq_ok hdocument
  | toggle enabled =>
    rw [Deliveries.check] at h
    obtain ⟨_, -, h⟩ := bind_ok h
    cases h
  | delete =>
    rw [Deliveries.check] at h
    obtain ⟨_, -, h⟩ := bind_ok h
    cases h

theorem carrying_request (hs : s.Carrying view) {u id : ℕ} {change : Change} {edit : Edit}
    (hcheck : s.check view safeLoad caller id change = .ok edit) :
    (s.setEdit u (some ⟨caller, id, edit⟩)).Carrying view := by
  refine carrying_setEdit hs fun pending config hpending hreplace ↦ ?_
  rw [← Option.some.inj hpending] at hreplace ⊢
  change edit = .replace config at hreplace
  exact check_eq_replace (hreplace ▸ hcheck)

theorem carrying_drop (hs : s.Carrying view) {u : ℕ} : (s.setEdit u none).Carrying view :=
  carrying_setEdit hs fun _ _ hnone ↦ absurd hnone (Option.some_ne_none _).symm

theorem carrying_write (hs : s.Carrying view) {u : ℕ} {pending : PendingEdit}
    (hnamed : StoresNamed view safeLoad s (.write u true)) (hedit : s.edits u = some pending) :
    ({ s.setEdit u none with automations := pending.applyAll s.automations } :
      Deliveries).Carrying view := by
  have hset : (s.setEdit u none).Carrying view := carrying_drop hs
  refine ⟨⟨fun a ha ↦ ?_, hs.fired, hs.submitted⟩, hset.carries, hset.checked⟩
  change a ∈ pending.applyAll s.automations at ha
  rw [PendingEdit.applyAll] at ha
  split at ha
  · exact hs.stored a (List.mem_of_mem_filter ha)
  · obtain ⟨stored, hstored, rfl⟩ := List.mem_map.mp ha
    exact confined_apply hs hedit hstored fun config hreplace hid ↦
      hnamed pending config hedit hreplace (hid ▸ List.mem_map_of_mem hstored)

theorem carrying_fire (hs : s.Carrying view) {c : ℕ} {claim : Claim} {current : Entry}
    {pending : List Entry} (hphase : s.considers c = .firing claim (current :: pending))
    (hdue : current.isDue claim.row = true) :
    ({ s.setConsider c (.acting claim current current.automation.config.actions pending) with
        fired := s.fired ++ [⟨current.id, claim.job, claim.row, current.writer⟩] } :
      Deliveries).Carrying view := by
  have hcarries := hs.carries c
  rw [hphase] at hcarries
  rw [Entry.isDue, Bool.and_eq_true] at hdue
  have hcurrent := hcarries current List.mem_cons_self
  have hacting := hs.advance (c := c) (.acting claim current
    current.automation.config.actions pending)
    ⟨fun a ha ↦ hcarries a (List.mem_cons_of_mem _ ha), hcurrent.imp_right And.left⟩
  refine ⟨⟨hs.stored, fun f hf ↦ ?_, hs.submitted⟩, hacting.carries, hs.checked⟩
  rcases List.mem_append.mp hf with hold | hnew
  · exact hs.fired f hold
  · rw [List.mem_singleton.mp hnew]
    exact hcurrent.imp_right fun hconfined ↦ hconfined.2 claim.row hdue.1

/-- An action submits a job in the repository it names. -/
theorem allowed_of_submitted {writer : Principal} {name : Str} {action : Action}
    (h : actionAllowed writer action = true) {job : Job}
    (hjob : job ∈ (submitted name action).toList) :
    allowsRepo writer (.text job.repository) = true := by
  cases action with
  | runWorkspace repository workspace params =>
    rw [submitted, Option.toList_some, List.mem_singleton] at hjob
    rw [hjob]
    exact h
  | httpRequest url method headers body => cases hjob

theorem carrying_act (hs : s.Carrying view) {c : ℕ} {claim : Claim} {current : Entry}
    {action : Action} {left : List Action} {pending : List Entry} {jobs : List Job}
    (hphase : s.considers c = .acting claim current (action :: left) pending) {new : List Job}
    (hnew : new ⊆ (submitted current.automation.name action).toList) :
    ({ s.setConsider c (.acting claim current left pending) with
        jobs := jobs
        submitted := s.submitted ++ new.map (⟨current.writer, ·⟩) } :
      Deliveries).Carrying view := by
  have hcarries := hs.carries c
  rw [hphase] at hcarries
  obtain ⟨hrest, hactions⟩ := hcarries
  rw [List.all_cons, Bool.and_eq_true] at hactions
  have hacting := hs.advance (c := c) (.acting claim current left pending)
    ⟨hrest, hactions.imp_right And.right⟩
  refine ⟨⟨hs.stored, hs.fired, fun x hx ↦ ?_⟩, hacting.carries, hs.checked⟩
  rcases List.mem_append.mp hx with hold | hmem
  · exact hs.submitted x hold
  · obtain ⟨job, hjob, rfl⟩ := List.mem_map.mp hmem
    exact hactions.imp_right fun hallowed ↦ allowed_of_submitted hallowed.1 (hnew hjob)

theorem carrying_step (hs : s.Carrying view) (hnamed : StoresNamed view safeLoad s a)
    (h : (deliveryMachine view safeLoad).step s a = some t) : t.Carrying view := by
  have hphases := hs.carries
  cases deliveryMoves_of_step h with
  | refuse => exact hs
  | outside => exact hs.jobs _ _
  | insert hcheck =>
    exact carrying_insert hs ((confined_iff (checkDocument_eq_ok hcheck)).mpr (hnamed _ hcheck))
  | request hcheck => exact carrying_request hs hcheck
  | write hedit => exact carrying_write hs hnamed hedit
  | drop => exact carrying_drop hs
  | read | ended | finish | raise => exact hs.advance _ trivial
  | claim => exact (hs.advance (.claimed _ _) trivial).jobs _ _
  | select =>
    refine hs.advance _ fun a ha ↦ ?_
    obtain ⟨id, -, hfound⟩ := List.mem_filterMap.mp ha
    exact hs.stored a (List.mem_of_find?_eq_some hfound)
  | @skip c claim current pending context hphase =>
    have hcarries := hphases c
    rw [hphase] at hcarries
    exact hs.advance _ fun a ha ↦ hcarries a (List.mem_cons_of_mem _ ha)
  | fire hphase hdue => exact carrying_fire hs hphase hdue
  | @act c claim current action left pending submits hphase =>
    refine carrying_act hs hphase ?_
    cases submits with
    | true => exact List.Subset.refl _
    | false => exact List.nil_subset _
  | @record c claim current pending stores hphase =>
    have hcarries := hphases c
    rw [hphase] at hcarries
    exact hs.advance _ hcarries.1
  | @touch c claim current pending hphase =>
    have hcarries := hphases c
    rw [hphase] at hcarries
    exact hs.advance _ hcarries

/-- A document that is stored against the condition is not confined. -/
theorem confining_break (hs : s.Carrying view) (hnamed : ¬ StoresNamed view safeLoad s a)
    (h : (deliveryMachine view safeLoad).step s a = some t) : ¬ t.Confining := by
  intro ht
  apply hnamed
  cases a with
  | create caller text stores =>
    cases stores with
    | false => trivial
    | true =>
      intro config hcheck
      have hinsert : s.insert caller config = t := by
        have hcreate : s.create view safeLoad caller text true = t := Option.some.inj h
        rw [Deliveries.create, hcheck] at hcreate
        exact hcreate
      have hnew : ⟨s.nextId, ⟨config.name, config, config.enabled, s.clock⟩, caller⟩ ∈
          t.automations := by
        rw [← hinsert]
        exact List.mem_append_right _ (List.mem_singleton_self _)
      exact (confined_iff (checkDocument_eq_ok hcheck)).mp (ht.stored _ hnew)
  | write u stores =>
    cases stores with
    | false => trivial
    | true =>
      intro pending config hedit hreplace hid
      obtain ⟨stored, hstored, hkey⟩ := List.mem_map.mp hid
      have hwrite : t.automations = pending.applyAll s.automations := by
        change s.write u true = some t at h
        rw [Deliveries.write, hedit] at h
        exact Option.some.inj h ▸ rfl
      have hmem : pending.apply stored ∈ t.automations := by
        rw [hwrite, PendingEdit.applyAll, hreplace]
        exact List.mem_map_of_mem hstored
      have happlied := ht.stored _ hmem
      rw [PendingEdit.apply, if_pos hkey, hreplace] at happlied
      exact (confined_iff (hs.checked u pending config hedit hreplace)).mp happlied
  | _ => trivial

theorem carrying_init : ({} : Deliveries).Carrying view where
  stored _ h := nomatch h
  fired _ h := nomatch h
  submitted _ h := nomatch h
  carries _ := trivial
  checked _ _ _ h := nomatch h

/-- In every run the automations reach no more than their writers could exactly as long as no
document that watches everything by the empty name is stored for a confined writer. -/
theorem confining_iff_storesNamed (view : Rendering) (safeLoad : Str → Except Str Yaml)
    (actions : List DeliveryAction) {s : Deliveries}
    (hrun : (deliveryMachine view safeLoad).run {} actions = some s) :
    (deliveryMachine view safeLoad).Always Deliveries.Confining {} actions ↔
      (deliveryMachine view safeLoad).Meets (StoresNamed view safeLoad) {} actions :=
  (deliveryMachine view safeLoad).always_iff_meets (I := Deliveries.Carrying view)
    (fun _ hs ↦ hs.toConfining) (fun _ _ _ hs hnamed h ↦ carrying_step hs hnamed h)
    (fun _ _ _ hs hnamed h ↦ confining_break hs hnamed h) hrun carrying_init

/-- A document that watches the repository with the empty name. -/
def unnamedDocument (name : Str) : Except Str Yaml :=
  .ok (.mapping [
    (.text (str "name"), .text name),
    (.text (str "trigger"), .mapping [
      (.text (str "type"), .text (str "job_complete")),
      (.text (str "repository"), .text [])]),
    (.text (str "actions"), .list [.mapping [
      (.text (str "type"), .text (str "http_request")),
      (.text (str "url"), .text (str "https://example.org/"))]])])

/-- An account whose scope is `ops` and `/*` has the document fired on a job of `finance`. -/
def unnamedRun : List DeliveryAction := [
  .create (scopedTo [str "ops", str "/*"]) (str "spy") true,
  .submit (str "finance") (str "payroll") none, .complete 0 .complete,
  .read 0 0, .claim 0, .select 0 [0], .next 0 true]

theorem unnamedRun_not_confining : ¬ ∀ actions s,
    (deliveryMachine textsOnly unnamedDocument).run {} actions = some s → s.Confining := by
  intro h
  obtain ⟨s, hrun, f, hf, hwriter⟩ : ∃ s,
      (deliveryMachine textsOnly unnamedDocument).run {} unnamedRun = some s ∧
        ∃ f ∈ s.fired, ¬ (Unconfined f.writer ∨
          allowsRepo f.writer (.text f.row.repository) = true) := by
    refine ⟨_, rfl, _, List.mem_singleton_self _, ?_⟩
    rw [Unconfined]
    decide
  exact hwriter ((h _ s hrun).fired f hf)

/-- An account scoped to `ops` has an automation of `ops` stored and fired. -/
theorem confining_iff_storesNamed_publish :
    (deliveryMachine textsOnly publishDocument).Always Deliveries.Confining {}
      [.create (scopedTo [str "ops"]) (str "first") true, .submit (str "ops") (str "load") none,
        .complete 0 .complete, .read 0 0, .claim 0, .select 0 [0], .next 0 true, .act 0 true] ↔
    (deliveryMachine textsOnly publishDocument).Meets (StoresNamed textsOnly publishDocument) {}
      [.create (scopedTo [str "ops"]) (str "first") true, .submit (str "ops") (str "load") none,
        .complete 0 .complete, .read 0 0, .claim 0, .select 0 [0], .next 0 true, .act 0 true] :=
  confining_iff_storesNamed textsOnly publishDocument _ rfl

end DatumSync.Automations
