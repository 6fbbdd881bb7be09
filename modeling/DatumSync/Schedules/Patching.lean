import DatumSync.Foundation.PartialUpdate
import DatumSync.Schedules.Update

/-!
# Updates of a schedule as partial updates

The columns `update` may change, what it asks them to be and what it writes back to the others.
-/

namespace DatumSync.Schedules

open Foundation Python

inductive Column where
  | params
  | cron
  | intervalS
  | timezone
  | enabled

def Column.Value : Column → Type
  | params => Str
  | cron => Option Str
  | intervalS => Option ℤ
  | timezone => Str
  | enabled => Bool

/-- One call of `update`: its changes, what the manifest says of its parameters, and the time at
which it computes the next run. -/
structure Update where
  changes : Changes
  checked : Except Exc Unit := .ok ()
  now : ℤ

def Row.column (row : Row) : ∀ c : Column, c.Value
  | .params => row.params
  | .cron => row.trigger.cron
  | .intervalS => row.trigger.intervalS
  | .timezone => row.trigger.timezone
  | .enabled => row.enabled

variable (api : Api)

def Changes.column (changes : Changes) : ∀ c : Column, Option c.Value
  | .params => changes.params.map api.dumps
  | .cron => changes.cron
  | .intervalS => changes.intervalS
  | .timezone => changes.timezone
  | .enabled => changes.enabled

/-- What `merged` has of the row that was read, as it is written back. -/
def Row.carried (row : Row) : ∀ c : Column, Option c.Value
  | .params => (loads api.depth row.params).toOption.map api.dumps
  | .cron => some row.trigger.cron
  | .intervalS => some row.trigger.intervalS
  | .timezone => some row.trigger.timezone
  | .enabled => some row.enabled

/-- The update passes every check on the row it has read. -/
structure Update.Valid (update : Update) (read : Row) : Prop where
  known : update.changes.unknown = []
  loads : ∃ params, loads api.depth read.params = .ok params
  trigger : validate api.calendar (update.changes.trigger read) = .ok ()
  params : update.changes.params.isSome = true → update.checked = .ok ()
  timed : ∃ nextRun, nextRunOf api update.now read update.changes = .ok nextRun

/-- `update` for the row it has read, as what it does to the row it writes to. -/
def Update.apply (update : Update) (read : Row) : Option (Row → Row) :=
  match checkKeys update.changes, plan api update.checked update.now read update.changes with
  | .ok (), .ok written => some fun now ↦ now.write written
  | _, _ => none

variable {api}

/-- A row that was read is planned for exactly when every check but the first passes on it. -/
theorem exists_plan_iff {checked : Except Exc Unit} {now : ℤ} {current : Row}
    {changes : Changes} :
    (∃ written, plan api checked now current changes = .ok written) ↔
      (∃ params, loads api.depth current.params = .ok params) ∧
        validate api.calendar (changes.trigger current) = .ok () ∧
        (changes.params.isSome = true → checked = .ok ()) ∧
        ∃ nextRun, nextRunOf api now current changes = .ok nextRun := by
  have hchecked : (if changes.params.isSome then checked else .ok ()) = .ok () ↔
      (changes.params.isSome = true → checked = .ok ()) := by
    split_ifs with hparams
    · exact ⟨fun h _ ↦ h, fun h ↦ h hparams⟩
    · exact ⟨fun _ h ↦ absurd h hparams, fun _ ↦ rfl⟩
  rw [← hchecked]
  unfold plan
  cases loads api.depth current.params with
  | error e => simp
  | ok params =>
    cases validate api.calendar (changes.trigger current) with
    | error e => simp
    | ok valid =>
      cases (if changes.params.isSome then checked else .ok () : Except Exc Unit) with
      | error e => simp
      | ok checked => cases nextRunOf api now current changes <;> simp

theorem Update.isSome_apply {update : Update} {read : Row} :
    (update.apply api read).isSome = true ↔ update.Valid api read := by
  have hplan := @exists_plan_iff api update.checked update.now read update.changes
  unfold Update.apply checkKeys
  by_cases hknown : update.changes.unknown = []
  · rw [if_pos hknown]
    constructor
    · intro h
      split at h
      · next written _ hwritten =>
        obtain ⟨hloads, htrigger, hparams, htimed⟩ := hplan.mp ⟨written, hwritten⟩
        exact ⟨hknown, hloads, htrigger, hparams, htimed⟩
      · cases h
    · rintro ⟨-, hloads, htrigger, hparams, htimed⟩
      obtain ⟨written, hwritten⟩ := hplan.mpr ⟨hloads, htrigger, hparams, htimed⟩
      rw [hwritten]
      rfl
  · rw [if_neg hknown]
    exact ⟨fun h ↦ (by cases h), fun h ↦ absurd h.known hknown⟩

/-- The patchable columns of a planned row. -/
theorem plan_merged {checked : Except Exc Unit} {now : ℤ} {current written : Row}
    {changes : Changes} (h : plan api checked now current changes = .ok written) :
    ∃ params, loads api.depth current.params = .ok params ∧
      written.params = api.dumps (changes.params.getD params) ∧
      written.trigger = changes.trigger current ∧
      written.enabled = changes.enabled.getD current.enabled := by
  unfold plan at h
  split at h
  · cases h
  · next params hparams =>
    refine ⟨params, hparams, ?_⟩
    split at h
    · cases h
    · split at h
      · cases h
      · split at h
        · cases h
        · rw [← Except.ok.inj h]
          exact ⟨rfl, rfl, rfl⟩

theorem Update.apply_eq_some {update : Update} {read : Row} {write : Row → Row}
    (h : update.apply api read = some write) :
    ∃ written, plan api update.checked update.now read update.changes = .ok written ∧
      write = fun now ↦ now.write written := by
  unfold Update.apply at h
  split at h
  · next written _ hplan => exact ⟨written, hplan, (Option.some.inj h).symm⟩
  · cases h

variable (api)

/-- `update` as a partial update of the patchable columns. -/
def patching : Patching Row Update Column Column.Value where
  get := Row.column
  asked update := update.changes.column api
  carried row := row.carried api
  Valid := Update.Valid api
  update := Update.apply api
  isSome_update := Update.isSome_apply
  get_update := by
    intro update read write h now c
    obtain ⟨written, hplan, rfl⟩ := Update.apply_eq_some h
    obtain ⟨params, hparams, hwritten, htrigger, henabled⟩ := plan_merged hplan
    cases c with
    | params =>
      change written.params = _
      rw [hwritten, Row.carried, hparams, Changes.column]
      cases update.changes.params <;> rfl
    | cron =>
      change written.trigger.cron = _
      rw [htrigger]
      rfl
    | intervalS =>
      change written.trigger.intervalS = _
      rw [htrigger]
      rfl
    | timezone =>
      change written.trigger.timezone = _
      rw [htrigger]
      rfl
    | enabled =>
      change written.enabled = _
      rw [henabled]
      rfl

end DatumSync.Schedules
