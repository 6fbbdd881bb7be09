import DatumSync.Schedules.Schedule

/-!
# Updating a schedule

`update` between its `SELECT` and its `UPDATE`: what it writes back for the row it has read.
-/

namespace DatumSync.Schedules

open Python

/-- The `changes` of an update; a key that is absent is `none`. -/
structure Changes where
  params : Option Json := none
  cron : Option (Option Str) := none
  intervalS : Option (Option ℤ) := none
  timezone : Option Str := none
  enabled : Option Bool := none
  /-- Keys that are not in `_PATCHABLE`. -/
  unknown : List Str := []

/-- What an update asks for besides the table. -/
structure Api where
  calendar : Calendar
  /-- `json.dumps` -/
  dumps : Json → Str
  /-- The nesting limit of `json.loads`. -/
  depth : ℕ

/-- `any(key in changes for key in ("cron", "interval_s", "timezone"))` -/
def Changes.retimed (changes : Changes) : Bool :=
  changes.cron.isSome || changes.intervalS.isSome || changes.timezone.isSome

def Changes.enabling (changes : Changes) (current : Row) : Bool :=
  changes.enabled.getD false && !current.enabled

def Changes.trigger (changes : Changes) (current : Row) : Trigger where
  cron := changes.cron.getD current.trigger.cron
  intervalS := changes.intervalS.getD current.trigger.intervalS
  timezone := changes.timezone.getD current.trigger.timezone

def checkKeys (changes : Changes) : Except Exc Unit :=
  if changes.unknown = [] then .ok ()
  else .error (scheduleError (str "cannot change: " ++ commaSorted changes.unknown))

/-- The `next_run` an update writes at the time `now`. -/
def nextRunOf (api : Api) (now : ℤ) (current : Row) (changes : Changes) :
    Except Exc (Option ℤ) :=
  if changes.retimed || changes.enabling current then
    (nextAfter api.calendar now (changes.trigger current)).map some
  else .ok current.nextRun

/-- The row `update` writes back for the row it has read; `checked` is what the manifest says of new
parameters. -/
def plan (api : Api) (checked : Except Exc Unit) (now : ℤ) (current : Row) (changes : Changes) :
    Except Exc Row :=
  match loads api.depth current.params with
  | .error e => .error e
  | .ok params =>
    match validate api.calendar (changes.trigger current) with
    | .error e => .error e
    | .ok () =>
      match if changes.params.isSome then checked else .ok () with
      | .error e => .error e
      | .ok () =>
        match nextRunOf api now current changes with
        | .error e => .error e
        | .ok nextRun =>
          .ok { current with
            params := api.dumps (changes.params.getD params)
            trigger := changes.trigger current
            enabled := changes.enabled.getD current.enabled
            nextRun := nextRun }

/-- `UPDATE schedules SET params, cron, interval_s, timezone, enabled, next_run` -/
def Row.write (row written : Row) : Row :=
  { row with
    params := written.params
    trigger := written.trigger
    enabled := written.enabled
    nextRun := written.nextRun }

/-- What an update that was planned writes: a positive trigger, and a due time that is the one it
has read from an enabled row, or one after the time of the plan. -/
theorem plan_ok {api : Api} (hforward : api.calendar.Forward) {checked : Except Exc Unit} {now : ℤ}
    {current written : Row} {changes : Changes}
    (h : plan api checked now current changes = .ok written) :
    written.trigger.Positive ∧ (written.enabled = true → ∀ next, written.nextRun = some next →
      (current.enabled = true ∧ current.nextRun = some next) ∨ now < next) := by
  unfold plan at h
  split at h
  · cases h
  · split at h
    · cases h
    · next hvalid =>
      split at h
      · cases h
      · split at h
        · cases h
        · next nextRun hnext =>
          obtain rfl := Except.ok.inj h
          have hpositive := validate_positive hvalid
          refine ⟨hpositive, fun henabled next hwritten ↦ ?_⟩
          dsimp only at henabled hwritten
          unfold nextRunOf at hnext
          split at hnext
          · rw [hwritten] at hnext
            cases hafter : nextAfter api.calendar now (changes.trigger current) with
            | error e =>
              rw [hafter] at hnext
              cases hnext
            | ok following =>
              rw [hafter] at hnext
              obtain rfl : following = next := Option.some.inj (Except.ok.inj hnext)
              exact .inr (nextAfter_gt hforward hpositive hafter)
          · next hkept =>
            obtain rfl := Except.ok.inj hnext
            refine .inl ⟨?_, hwritten⟩
            -- an update that enables a disabled row would have been timed afresh
            by_contra hdisabled
            rw [Bool.not_eq_true] at hdisabled
            apply hkept
            cases hchange : changes.enabled with
            | none =>
              rw [hchange, Option.getD_none, hdisabled] at henabled
              cases henabled
            | some enabled =>
              rw [hchange, Option.getD_some] at henabled
              rw [Changes.enabling, hchange, hdisabled, henabled]
              simp

end DatumSync.Schedules
