import DatumSync.Errors

/-!
# Schedules and their due times

The row of a schedule, the checks `create` and `update` make, and how the next due time is
computed.  Moments are microseconds since the epoch.  The time zone database and `croniter` are
parameters; that `croniter` answers with a later moment is `Calendar.Forward`.
-/

namespace DatumSync.Schedules

open Python

/-- When a schedule runs: one of `cron` and `interval_s` is set. -/
structure Trigger where
  cron : Option Str
  intervalS : Option ℤ
  timezone : Str
  deriving DecidableEq

/-- The columns of `schedules` that ticks and updates read or write. -/
structure Row where
  id : ℤ
  name : Str
  repository : Str
  workspace : Str
  params : Str
  trigger : Trigger
  enabled : Bool
  lastRun : Option ℤ := none
  lastJob : Option Str := none
  nextRun : Option ℤ
  deriving DecidableEq

/-- The time zone database and `croniter`. -/
structure Calendar where
  /-- `zoneinfo.ZoneInfo(name)` -/
  zoneInfo : Str → Except Exc Unit
  /-- `croniter.is_valid` -/
  isValid : Str → Bool
  /-- `croniter(cron, local).get_next(datetime)` for the local time of a moment, as a moment. -/
  getNext : Str → Str → ℤ → Except Exc ℤ
  reprOf : Str → Str

/-- The next time of a cron expression is later than the time it is asked for. -/
def Calendar.Forward (calendar : Calendar) : Prop :=
  ∀ cron zone moment following, calendar.getNext cron zone moment = .ok following →
    moment < following

/-- An interval is positive, as `validate` and the column's constraint have it. -/
def Trigger.Positive (trigger : Trigger) : Prop := ∀ s, trigger.intervalS = some s → 0 < s

variable (calendar : Calendar)

def scheduleError (message : Str) : Exc := .raised .scheduleError message

def zone (name : Str) : Except Exc Unit :=
  match calendar.zoneInfo name with
  | .ok () => .ok ()
  | .error e =>
    if e.isA .zoneInfoNotFoundError then .error (scheduleError (str "unknown timezone: " ++ name))
    else .error e

def validate (trigger : Trigger) : Except Exc Unit :=
  if trigger.cron.isNone = trigger.intervalS.isNone then
    .error (scheduleError (str "set exactly one of cron or interval_s"))
  else if trigger.intervalS.any (· ≤ 0) then
    .error (scheduleError (str "interval_s must be positive"))
  else match zone calendar trigger.timezone with
    | .error e => .error e
    | .ok () =>
      match trigger.cron with
      | none => .ok ()
      | some cron =>
        if calendar.isValid cron then .ok ()
        else .error (scheduleError (str "not a cron expression: " ++ calendar.reprOf cron))

/-- The last microsecond a `datetime` can hold. -/
def maxMoment : ℤ := 253402300799999999

/-- `moment + timedelta(seconds=s)` -/
def addSeconds (moment s : ℤ) : Except Exc ℤ :=
  if moment + s * 1000000 ≤ maxMoment then .ok (moment + s * 1000000)
  else .error (.raised .otherError (str "date value out of range"))

def nextAfter (moment : ℤ) (trigger : Trigger) : Except Exc ℤ :=
  match trigger.intervalS with
  | some s => addSeconds moment s
  | none =>
    match zone calendar trigger.timezone with
    | .error e => .error e
    | .ok () =>
      match trigger.cron with
      | some cron => calendar.getNext cron trigger.timezone moment
      | none => .error (.raised .attributeError (str "'NoneType' object has no attribute 'split'"))

def maxCatchupSteps : ℕ := 1000

/-- The loop of `_advance`, with `steps` to go. -/
def advanceFrom (trigger : Trigger) (moment : ℤ) : (steps : ℕ) → ℤ → Except Exc ℤ
  | 0, _ => nextAfter calendar moment trigger
  | steps + 1, upcoming =>
    match nextAfter calendar upcoming trigger with
    | .error e => .error e
    | .ok following =>
      if moment < following then .ok following else advanceFrom trigger moment steps following

/-- `_advance` from the due time `due`. -/
def advance (trigger : Trigger) (due moment : ℤ) : Except Exc ℤ :=
  advanceFrom calendar trigger moment maxCatchupSteps due

variable {calendar}

theorem nextAfter_gt (hforward : calendar.Forward) {trigger : Trigger}
    (hpositive : trigger.Positive) {moment following : ℤ}
    (h : nextAfter calendar moment trigger = .ok following) : moment < following := by
  unfold nextAfter at h
  split at h
  · next s hs =>
    have hs0 := hpositive s hs
    unfold addSeconds at h
    split at h
    · obtain rfl := Except.ok.inj h
      omega
    · cases h
  · split at h
    · cases h
    · split at h
      · exact hforward _ _ _ _ h
      · cases h

/-- A schedule is advanced past the moment it is advanced at. -/
theorem advanceFrom_gt (hforward : calendar.Forward) {trigger : Trigger}
    (hpositive : trigger.Positive) {moment upcoming : ℤ} (steps : ℕ) {due : ℤ}
    (h : advanceFrom calendar trigger moment steps due = .ok upcoming) : moment < upcoming := by
  induction steps generalizing due with
  | zero => exact nextAfter_gt hforward hpositive h
  | succ steps ih =>
    rw [advanceFrom] at h
    split at h
    · cases h
    · split at h
      · next hlater =>
        obtain rfl := Except.ok.inj h
        exact hlater
      · exact ih h

theorem validate_positive {trigger : Trigger} (h : validate calendar trigger = .ok ()) :
    trigger.Positive := by
  intro s hs
  unfold validate at h
  split at h
  · cases h
  · split at h
    · cases h
    · next hnot =>
      rw [hs, Option.any_some, decide_eq_true_eq] at hnot
      exact not_le.mp hnot

end DatumSync.Schedules
