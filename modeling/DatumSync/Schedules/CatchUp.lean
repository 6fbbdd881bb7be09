import DatumSync.Foundation.BoundedWalk
import DatumSync.Schedules.Schedule
import Mathlib.Order.Bounds.Basic
import Mathlib.Tactic.Positivity
import Mathlib.Tactic.Ring

/-!
# Catching up

What `_advance` comes to for a row that is due: a phase point of an interval, the next instant of
a cron expression, or the overflow of a `datetime`.
-/

namespace DatumSync.Schedules

open Foundation Python

variable {calendar : Calendar}

/-- The microseconds of an interval of `s` seconds. -/
def period (s : ℤ) : ℤ := s * 1000000

theorem period_pos {s : ℤ} (h : 0 < s) : 0 < period s := by
  unfold period
  positivity

/-- The `j`-th due time after `due`. -/
def phasePoint (s due : ℤ) (j : ℕ) : ℤ := due + j * period s

@[simp] theorem phasePoint_zero (s due : ℤ) : phasePoint s due 0 = due := by
  simp [phasePoint]

theorem phasePoint_succ (s due : ℤ) (j : ℕ) :
    phasePoint s due (j + 1) = phasePoint s due j + period s := by
  unfold phasePoint
  push_cast
  ring

theorem addSeconds_phasePoint (s due : ℤ) (j : ℕ) :
    addSeconds (phasePoint s due j) s =
      if phasePoint s due (j + 1) ≤ maxMoment then .ok (phasePoint s due (j + 1))
      else .error (.raised .otherError (str "date value out of range")) := by
  rw [phasePoint_succ]
  rfl

/-- The loop of `_advance` is a bounded walk. -/
theorem advanceFrom_eq_walk (trigger : Trigger) (moment : ℤ) (steps : ℕ) (due : ℤ) :
    advanceFrom calendar trigger moment steps due =
      walk (fun upcoming ↦ nextAfter calendar upcoming trigger) (fun t ↦ decide (moment < t))
        (nextAfter calendar moment trigger) steps due := by
  induction steps generalizing due with
  | zero => rfl
  | succ steps ih =>
    rw [advanceFrom, walk]
    cases nextAfter calendar due trigger with
    | error e => rfl
    | ok following => simp [ih]

/-- The number of periods from `due` to the first due time after `moment`. -/
def Missed (s due moment : ℤ) (k : ℕ) : Prop :=
  IsLeast {k : ℕ | 0 < k ∧ moment < phasePoint s due k} k

theorem Missed.pos {s due moment : ℤ} {k : ℕ} (h : Missed s due moment k) : 0 < k := h.1.1

theorem Missed.lt {s due moment : ℤ} {k : ℕ} (h : Missed s due moment k) :
    moment < phasePoint s due k := h.1.2

theorem Missed.le {s due moment : ℤ} {k : ℕ} (h : Missed s due moment k) {j : ℕ} (hj : j + 1 < k) :
    phasePoint s due (j + 1) ≤ moment := by
  by_contra hlater
  have hle : k ≤ j + 1 := h.2 ⟨Nat.succ_pos j, not_le.mp hlater⟩
  omega

theorem exists_missed {s : ℤ} (hs : 0 < s) (due moment : ℤ) : ∃ k, Missed s due moment k := by
  have hperiod := period_pos hs
  have hsome : ∃ k : ℕ, 0 < k ∧ moment < phasePoint s due k := by
    refine ⟨(moment - due).toNat + 1, Nat.succ_pos _, ?_⟩
    unfold phasePoint
    have hmul : ((moment - due).toNat + 1 : ℤ) ≤ ((moment - due).toNat + 1) * period s :=
      le_mul_of_one_le_right (by positivity) hperiod
    push_cast
    omega
  classical
  exact ⟨Nat.find hsome, Nat.find_spec hsome, fun _ hk ↦ Nat.find_min' hsome hk⟩

/-- What `_advance` is to return for an interval: the due time of the least `k`, or the fallback
past the bound on the steps. -/
def catchUpTarget (s due moment : ℤ) (k : ℕ) : ℤ :=
  if k ≤ maxCatchupSteps then phasePoint s due k else moment + period s

theorem catchUpTarget_gt {s due moment : ℤ} (hs : 0 < s) {k : ℕ} (hk : Missed s due moment k) :
    moment < catchUpTarget s due moment k := by
  unfold catchUpTarget
  split
  · exact hk.lt
  · have := period_pos hs
    omega

/-- Below the least `k` the walk is on due times that have passed, and none overflows. -/
theorem advance_interval {trigger : Trigger} {s : ℤ} (hinterval : trigger.intervalS = some s)
    {due moment : ℤ} (hmoment : moment ≤ maxMoment) {k : ℕ} (hk : Missed s due moment k) :
    advance calendar trigger due moment =
      if catchUpTarget s due moment k ≤ maxMoment then .ok (catchUpTarget s due moment k)
      else .error (.raised .otherError (str "date value out of range")) := by
  have hnext (m : ℤ) : nextAfter calendar m trigger = addSeconds m s := by
    simp only [nextAfter, hinterval]
  have hpath (j : ℕ) (hj : j + 1 < k) :
      nextAfter calendar (phasePoint s due j) trigger = .ok (phasePoint s due (j + 1)) := by
    rw [hnext, addSeconds_phasePoint, if_pos ((hk.le hj).trans hmoment)]
  have hgo (j : ℕ) (hj : j + 1 < k) : decide (moment < phasePoint s due (j + 1)) = false :=
    decide_eq_false (not_lt.mpr (hk.le hj))
  have hwalk := @advanceFrom_eq_walk calendar trigger moment maxCatchupSteps due
  rw [advance, hwalk]
  by_cases hbound : k ≤ maxCatchupSteps
  · obtain ⟨j, rfl⟩ : ∃ j, k = j + 1 := ⟨k - 1, by have := hk.pos; omega⟩
    obtain ⟨rest, hrest⟩ : ∃ rest, maxCatchupSteps = rest + 1 + j :=
      ⟨maxCatchupSteps - (j + 1), by omega⟩
    have halong := @walk_path _ _ (nextAfter calendar · trigger) (fun t ↦ decide (moment < t))
      (nextAfter calendar moment trigger) (phasePoint s due) j (rest + 1)
        (fun i hi ↦ hpath i (by omega)) fun i hi ↦ hgo i (by omega)
    rw [phasePoint_zero] at halong
    rw [hrest, halong, walk, hnext, addSeconds_phasePoint, catchUpTarget, if_pos hbound]
    split
    · next heq =>
      split at heq
      · cases heq
      · obtain rfl := Except.error.inj heq
        rw [if_neg ‹_›]
    · next heq =>
      split at heq
      · obtain rfl := Except.ok.inj heq
        rw [if_pos (decide_eq_true hk.lt), if_pos ‹_›]
      · cases heq
  · have hlate := @walk_late _ _ (nextAfter calendar · trigger) (fun t ↦ decide (moment < t))
      (nextAfter calendar moment trigger) (phasePoint s due) maxCatchupSteps
        (fun i hi ↦ hpath i (by omega))
      fun i hi ↦ hgo i (by omega)
    rw [phasePoint_zero] at hlate
    rw [hlate, hnext, catchUpTarget, if_neg hbound]
    rfl

/-- `croniter` answers each moment up to `last` with the least of the expression's instants after
it. -/
def Calendar.Answers (calendar : Calendar) (cron zone : Str) (instants : Set ℤ) (last : ℤ) :
    Prop :=
  ∀ m ≤ last, ∃ following, calendar.getNext cron zone m = .ok following ∧
    IsLeast {t ∈ instants | m < t} following

/-- The walk is over moments up to `moment`, and the first instant after such a moment that is
later than `moment` is the first one after `moment`. -/
theorem advance_cron {trigger : Trigger} {cron : Str} (hcron : trigger.cron = some cron)
    (hinterval : trigger.intervalS = none) (hzone : zone calendar trigger.timezone = .ok ())
    {instants : Set ℤ} {due moment : ℤ} (hdue : due ≤ moment)
    (hanswers : calendar.Answers cron trigger.timezone instants moment) :
    ∃ upcoming, advance calendar trigger due moment = .ok upcoming ∧
      IsLeast {t ∈ instants | moment < t} upcoming := by
  have hnext (m : ℤ) :
      nextAfter calendar m trigger = calendar.getNext cron trigger.timezone m := by
    simp only [nextAfter, hinterval, hzone, hcron]
  rw [advance, advanceFrom_eq_walk]
  refine @walk_induction _ _ _ _ _ (· ≤ moment) _ ?_ ?_ maxCatchupSteps due hdue
  · intro m hm
    obtain ⟨following, heq, ⟨hmem, hafter⟩, hleast⟩ := hanswers m hm
    refine ⟨following, (hnext m).trans heq, ?_⟩
    split
    · next hlater =>
      exact ⟨⟨hmem, of_decide_eq_true hlater⟩, fun t ht ↦ hleast ⟨ht.1, hm.trans_lt ht.2⟩⟩
    · next hnot =>
      exact not_lt.mp fun hlater ↦ hnot (decide_eq_true hlater)
  · obtain ⟨following, heq, hleast⟩ := hanswers moment le_rfl
    exact ⟨following, (hnext moment).trans heq, hleast⟩

/-- A due row is advanced to the first of its due times after the moment, up to the bound on the
steps and to the last `datetime`. -/
theorem catch_up (calendar : Calendar) (trigger : Trigger) (due moment : ℤ) (hdue : due ≤ moment)
    (hmoment : moment ≤ maxMoment) :
    (∀ s, trigger.intervalS = some s → 0 < s →
      ∃ k, Missed s due moment k ∧ moment < catchUpTarget s due moment k ∧
        advance calendar trigger due moment =
          if catchUpTarget s due moment k ≤ maxMoment then .ok (catchUpTarget s due moment k)
          else .error (.raised .otherError (str "date value out of range"))) ∧
    ∀ cron instants, trigger.cron = some cron → trigger.intervalS = none →
      zone calendar trigger.timezone = .ok () →
      calendar.Answers cron trigger.timezone instants moment →
      ∃ upcoming, advance calendar trigger due moment = .ok upcoming ∧
        IsLeast {t ∈ instants | moment < t} upcoming := by
  refine ⟨fun s hinterval hs ↦ ?_, fun cron instants hcron hinterval hzone hanswers ↦
    advance_cron hcron hinterval hzone hdue hanswers⟩
  obtain ⟨k, hk⟩ := exists_missed hs due moment
  exact ⟨k, hk, catchUpTarget_gt hs hk, advance_interval hinterval hmoment hk⟩

/-- A calendar that answers `0 * * * *` in UTC. -/
def hourly : Calendar where
  zoneInfo _ := .ok ()
  isValid _ := true
  getNext _ _ moment := .ok ((moment / period 3600 + 1) * period 3600)
  reprOf text := text

def hours : Set ℤ := {t | ∃ n, t = n * period 3600}

theorem hourly_answers (cron zone : Str) (last : ℤ) : hourly.Answers cron zone hours last := by
  intro m _
  refine ⟨_, rfl, ⟨⟨_, rfl⟩, Int.lt_ediv_add_one_mul_self m (by decide)⟩, ?_⟩
  rintro t ⟨⟨n, rfl⟩, hlater⟩
  have hn : m / period 3600 < n := Int.ediv_lt_of_lt_mul (by decide) hlater
  exact mul_le_mul_of_nonneg_right hn (by decide)

/-- At 02:30 an hourly schedule that was due at 00:00 is next due at 03:00. -/
theorem catch_up_hourly :
    advance hourly { cron := none, intervalS := some 3600, timezone := str "UTC" } 0 9000000000 =
      .ok 10800000000 ∧
    ∃ upcoming, advance hourly
      { cron := some (str "0 * * * *"), intervalS := none, timezone := str "UTC" } 0 9000000000 =
        .ok upcoming ∧ IsLeast {t ∈ hours | 9000000000 < t} upcoming := by
  have hmissed : Missed 3600 0 9000000000 3 := by
    refine ⟨⟨by decide, by decide⟩, fun k hk ↦ ?_⟩
    have hlater : (9000000000 : ℤ) < 0 + k * (3600 * 1000000) := hk.2
    omega
  refine ⟨?_, (catch_up hourly _ 0 9000000000 (by decide) (by decide)).2 _ hours rfl rfl rfl
    (hourly_answers _ _ _)⟩
  obtain ⟨k, hk, _, hadvance⟩ := (catch_up hourly
    { cron := none, intervalS := some 3600, timezone := str "UTC" } 0 9000000000 (by decide)
    (by decide)).1 3600 rfl (by decide)
  obtain rfl := hk.unique hmissed
  exact hadvance

/-- A row that is due on the last microsecond has no due time after it. -/
theorem catch_up_overflow :
    Missed 1 maxMoment maxMoment 1 ∧
    ¬ ∃ upcoming, advance hourly { cron := none, intervalS := some 1, timezone := str "UTC" }
      maxMoment maxMoment = .ok upcoming := by
  refine ⟨⟨⟨by decide, by decide⟩, fun k hk ↦ hk.1⟩, ?_⟩
  rintro ⟨upcoming, h⟩
  cases h

end DatumSync.Schedules
