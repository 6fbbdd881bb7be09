import DatumSync.Foundation.Machine
import DatumSync.Schedules.Tick
import DatumSync.Schedules.Update

/-!
# Updates of a schedule against the ticks that fire it

One row of `schedules`, any number of `update` calls and any number of `_fire` transactions, with
their statements in any order and a clock that does not go back.  `_fire` holds the row lock from
its `SELECT` to the end of its transaction; `update` takes none between its `SELECT` and its
`UPDATE`.
-/

namespace DatumSync.Schedules

open Foundation Python

/-- Where an `update` is; `seen` counts the due times that had been acted on when it read. -/
inductive UpdatePhase where
  | idle
  | read (current : Row) (changes : Changes) (seen : ℕ)
  | planned (written : Row) (seen : ℕ)

inductive FirePhase where
  | idle
  | woken (moment : ℤ)
  | holding (moment : ℤ) (row : Row)
  | submitted (moment : ℤ) (row : Row) (upcoming : ℤ) (submission : Submission)

/-- The due time a `_fire` is acting on. -/
def FirePhase.acting : FirePhase → Option ℤ
  | idle => none
  | woken _ => none
  | holding _ row => some (row.nextRun.getD 0)
  | submitted _ row _ _ => some (row.nextRun.getD 0)

/-- The due time a `_fire` has failed to submit a job for. -/
def FirePhase.failed : FirePhase → List ℤ
  | submitted _ row _ (.failed _ _) => [row.nextRun.getD 0]
  | _ => []

/-- One schedule and those who use it. -/
structure Race where
  row : Row
  clock : ℤ
  /-- The `_fire` that holds the row lock. -/
  lock : Option ℕ := none
  updates : ℕ → UpdatePhase := fun _ ↦ .idle
  fires : ℕ → FirePhase := fun _ ↦ .idle
  /-- The due times for which a job was submitted or failed to be, oldest first. -/
  fired : List ℤ := []

/-- The statements of an update and of a `_fire`, and the clock. -/
inductive RaceAction where
  | tick (now : ℤ)
  | get (u : ℕ) (changes : Changes)
  | plan (u : ℕ) (checked : Except Exc Unit)
  | write (u : ℕ)
  | begin (f : ℕ)
  | select (f : ℕ)
  | submit (f : ℕ) (submission : Submission)
  | commit (f : ℕ)
  | rollback (f : ℕ)

def Race.setUpdate (s : Race) (u : ℕ) (phase : UpdatePhase) : Race :=
  { s with updates := Function.update s.updates u phase }

def Race.setFire (s : Race) (f : ℕ) (phase : FirePhase) : Race :=
  { s with fires := Function.update s.fires f phase }

/-- The end of a transaction of `_fire`, which gives its lock back. -/
def Race.finish (s : Race) (f : ℕ) (row : Row) (acted : List ℤ) : Race :=
  { s with
    row := row
    lock := if s.lock = some f then none else s.lock
    fires := Function.update s.fires f .idle
    fired := s.fired ++ acted }

variable (api : Api)

def Race.get (s : Race) (u : ℕ) (changes : Changes) : Option Race :=
  match s.updates u with
  | .idle =>
    match checkKeys changes with
    | .error _ => some s
    | .ok () => some (s.setUpdate u (.read s.row changes s.fired.length))
  | _ => none

/-- `update` between its `SELECT` and its `UPDATE` -/
def Race.plan (s : Race) (u : ℕ) (checked : Except Exc Unit) : Option Race :=
  match s.updates u with
  | .read current changes seen =>
    match Schedules.plan api checked s.clock current changes with
    | .error _ => some (s.setUpdate u .idle)
    | .ok written => some (s.setUpdate u (.planned written seen))
  | _ => none

/-- The `UPDATE` of `update`, which waits for a row lock. -/
def Race.write (s : Race) (u : ℕ) : Option Race :=
  match s.updates u, s.lock with
  | .planned written _, none => some { s.setUpdate u .idle with row := s.row.write written }
  | _, _ => none

def Race.begin (s : Race) (f : ℕ) : Option Race :=
  match s.fires f with
  | .idle => some (s.setFire f (.woken s.clock))
  | _ => none

/-- `SELECT ... WHERE id = $1 AND enabled AND next_run <= $2 FOR UPDATE SKIP LOCKED` -/
def Race.select (s : Race) (f : ℕ) : Option Race :=
  match s.fires f with
  | .woken moment =>
    if s.lock = none ∧ s.row.isDue moment = true then
      some { s.setFire f (.holding moment s.row) with lock := some f }
    else some (s.setFire f .idle)
  | _ => none

/-- `_advance` and `jobs.submit`; an exception of the first ends the transaction. -/
def Race.submit (s : Race) (f : ℕ) (submission : Submission) : Option Race :=
  match s.fires f with
  | .holding moment row =>
    match advance api.calendar row.trigger (row.nextRun.getD 0) moment with
    | .error _ => some (s.finish f s.row [])
    | .ok upcoming => some (s.setFire f (.submitted moment row upcoming submission))
  | _ => none

/-- The `UPDATE` of `_fire` and its commit, which an aborted transaction refuses. -/
def Race.commit (s : Race) (f : ℕ) : Option Race :=
  match s.fires f with
  | .submitted moment row upcoming submission =>
    if submission.isAborted then none
    else some (s.finish f (s.row.advanced moment submission.jobId upcoming)
      [row.nextRun.getD 0])
  | _ => none

/-- A transaction that ends without a commit.  Its job is undone; a failure stays one. -/
def Race.rollback (s : Race) (f : ℕ) : Option Race :=
  match s.fires f with
  | .idle => none
  | phase => some (s.finish f s.row phase.failed)

/-- The statements of one schedule, one at a time. -/
def raceMachine : Machine Race RaceAction where
  step s
    | .tick now => if s.clock ≤ now then some { s with clock := now } else none
    | .get u changes => s.get u changes
    | .plan u checked => s.plan api u checked
    | .write u => s.write u
    | .begin f => s.begin f
    | .select f => s.select f
    | .submit f submission => s.submit api f submission
    | .commit f => s.commit f
    | .rollback f => s.rollback f

/-- A schedule that nobody is using. -/
def Race.start (row : Row) (clock : ℤ) : Race where
  row := row
  clock := clock

/-- No due time is acted on twice: every one is later than those acted on before it. -/
def Race.Once (s : Race) : Prop :=
  s.fired.Pairwise (· < ·) ∧
    ∀ f due, (s.fires f).acting = some due → ∀ d ∈ s.fired, d < due

/-- An enabled row is due only after the given times. -/
def Row.Ahead (row : Row) (fired : List ℤ) : Prop :=
  row.enabled = true → ∀ next ∈ row.nextRun, ∀ due ∈ fired, due < next

instance (row : Row) (fired : List ℤ) : Decidable (row.Ahead fired) :=
  inferInstanceAs (Decidable (row.enabled = true → ∀ next ∈ row.nextRun, ∀ due ∈ fired, due < next))

/-- What is written is ahead of every due time acted on since the update read. -/
def UpdatePhase.Fresh (fired : List ℤ) : UpdatePhase → Prop
  | planned written seen => written.Ahead (fired.drop seen)
  | _ => True

instance (fired : List ℤ) : (phase : UpdatePhase) → Decidable (phase.Fresh fired)
  | .idle => isTrue trivial
  | .read _ _ _ => isTrue trivial
  | .planned written seen => inferInstanceAs (Decidable (written.Ahead (fired.drop seen)))

/-- An update writes a row that is due only after every due time acted on since it read, and no
`_fire` whose submission failed is rolled back. -/
def Race.Fresh (s : Race) : RaceAction → Prop
  | .write u => (s.updates u).Fresh s.fired
  | .rollback f => (s.fires f).failed = []
  | _ => True

instance (s : Race) : (a : RaceAction) → Decidable (s.Fresh a)
  | .write u => inferInstanceAs (Decidable ((s.updates u).Fresh s.fired))
  | .rollback f => inferInstanceAs (Decidable ((s.fires f).failed = []))
  | .tick _ | .get _ _ | .plan _ _ | .begin _ | .select _ | .submit _ _ | .commit _ =>
    isTrue trivial

/-! ## The invariant -/

/-- A `_fire` beyond its `SELECT` holds the lock, and its row is the row of the table. -/
def FirePhase.Inv (clock : ℤ) (lock : Option ℕ) (row : Row) (f : ℕ) : FirePhase → Prop
  | idle => lock ≠ some f
  | woken moment => lock ≠ some f ∧ moment ≤ clock
  | holding moment held => lock = some f ∧ moment ≤ clock ∧ held = row ∧ row.isDue moment = true
  | submitted moment held upcoming _ =>
    lock = some f ∧ moment ≤ clock ∧ held = row ∧ row.isDue moment = true ∧ moment < upcoming

/-- What an update has read or planned is ahead of what it had seen. -/
def UpdatePhase.Inv (fired : List ℤ) : UpdatePhase → Prop
  | idle => True
  | read current _ seen => seen ≤ fired.length ∧ current.Ahead (fired.take seen)
  | planned written seen =>
    seen ≤ fired.length ∧ written.trigger.Positive ∧ written.Ahead (fired.take seen)

structure Race.Inv (s : Race) : Prop where
  positive : s.row.trigger.Positive
  ahead : s.row.Ahead s.fired
  past : ∀ due ∈ s.fired, due ≤ s.clock
  once : s.fired.Pairwise (· < ·)
  fires : ∀ f, (s.fires f).Inv s.clock s.lock s.row f
  updates : ∀ u, (s.updates u).Inv s.fired

variable {api}

theorem Row.isDue_iff {row : Row} {moment : ℤ} :
    row.isDue moment = true ↔ row.enabled = true ∧ ∃ next, row.nextRun = some next ∧
      next ≤ moment := by
  rw [Row.isDue, Bool.and_eq_true, Option.any_eq_true]
  simp only [decide_eq_true_eq]

/-- The due time of a due row is later than what the row is ahead of. -/
theorem Row.Ahead.lt_due {row : Row} {fired : List ℤ} (h : row.Ahead fired) {moment : ℤ}
    (hdue : row.isDue moment = true) :
    row.nextRun.getD 0 ≤ moment ∧ ∀ due ∈ fired, due < row.nextRun.getD 0 := by
  obtain ⟨henabled, next, hnext, hle⟩ := Row.isDue_iff.mp hdue
  rw [hnext, Option.getD_some]
  exact ⟨hle, h henabled next hnext⟩

theorem FirePhase.Inv.frame {clock clock' : ℤ} {lock lock' : Option ℕ} {row row' : Row} {f : ℕ}
    {phase : FirePhase} (h : phase.Inv clock lock row f) (hclock : clock ≤ clock')
    (hlock : lock = some f ↔ lock' = some f) (hrow : lock = some f → row' = row) :
    phase.Inv clock' lock' row' f := by
  cases phase with
  | idle => exact fun hf ↦ h (hlock.mpr hf)
  | woken moment => exact ⟨fun hf ↦ h.1 (hlock.mpr hf), h.2.trans hclock⟩
  | holding moment held =>
    obtain ⟨hheld, hmoment, hsame, hdue⟩ := h
    rw [FirePhase.Inv, hrow hheld]
    exact ⟨hlock.mp hheld, hmoment.trans hclock, hsame, hdue⟩
  | submitted moment held upcoming submission =>
    obtain ⟨hheld, hmoment, hsame, hdue, hupcoming⟩ := h
    rw [FirePhase.Inv, hrow hheld]
    exact ⟨hlock.mp hheld, hmoment.trans hclock, hsame, hdue, hupcoming⟩

theorem UpdatePhase.Inv.append {fired : List ℤ} {phase : UpdatePhase} (h : phase.Inv fired)
    (more : List ℤ) : phase.Inv (fired ++ more) := by
  cases phase with
  | idle => trivial
  | read current changes seen =>
    refine ⟨?_, ?_⟩
    · rw [List.length_append]
      exact h.1.trans (Nat.le_add_right _ _)
    · rw [List.take_append_of_le_length h.1]
      exact h.2
  | planned written seen =>
    refine ⟨?_, h.2.1, ?_⟩
    · rw [List.length_append]
      exact h.1.trans (Nat.le_add_right _ _)
    · rw [List.take_append_of_le_length h.1]
      exact h.2.2

namespace Race.Inv

variable {s : Race}

theorem setUpdate (h : s.Inv) {u : ℕ} {phase : UpdatePhase} (hphase : phase.Inv s.fired) :
    (s.setUpdate u phase).Inv where
  positive := h.positive
  ahead := h.ahead
  past := h.past
  once := h.once
  fires := h.fires
  updates v := by
    change (Function.update s.updates u phase v).Inv s.fired
    by_cases hv : v = u
    · rw [hv, Function.update_self]
      exact hphase
    · rw [Function.update_of_ne hv]
      exact h.updates v

theorem setFire (h : s.Inv) {f : ℕ} {phase : FirePhase}
    (hphase : phase.Inv s.clock s.lock s.row f) : (s.setFire f phase).Inv where
  positive := h.positive
  ahead := h.ahead
  past := h.past
  once := h.once
  fires g := by
    change (Function.update s.fires f phase g).Inv s.clock s.lock s.row g
    by_cases hg : g = f
    · rw [hg, Function.update_self]
      exact hphase
    · rw [Function.update_of_ne hg]
      exact h.fires g
  updates := h.updates

/-- A transaction of `_fire` ends: the lock is free again if it had it, and what it acted on is
later than what was acted on before. -/
theorem finish (h : s.Inv) {f : ℕ} {row : Row} {acted : List ℤ}
    (hpositive : row.trigger.Positive) (hahead : row.Ahead (s.fired ++ acted))
    (hpast : ∀ due ∈ acted, due ≤ s.clock) (hacted : acted.Pairwise (· < ·))
    (hlater : ∀ due ∈ s.fired, ∀ due' ∈ acted, due < due')
    (hrow : s.lock = some f ∨ row = s.row) : (s.finish f row acted).Inv where
  positive := hpositive
  ahead := hahead
  past due hdue := by
    rcases List.mem_append.mp hdue with hold | hnew
    · exact h.past due hold
    · exact hpast due hnew
  once := List.pairwise_append.mpr ⟨h.once, hacted, hlater⟩
  fires g := by
    change (Function.update s.fires f .idle g).Inv s.clock
      (if s.lock = some f then none else s.lock) row g
    by_cases hg : g = f
    · rw [hg, Function.update_self]
      intro hf
      split at hf
      · cases hf
      · next hne => exact hne hf
    · rw [Function.update_of_ne hg]
      refine (h.fires g).frame le_rfl ?_ ?_
      · split
        · next hf =>
          rw [hf, Option.some.injEq]
          exact iff_of_false (Ne.symm hg) (by simp)
        · rfl
      · intro hheld
        rcases hrow with hf | hsame
        · rw [hf, Option.some.injEq] at hheld
          exact absurd hheld.symm hg
        · exact hsame
  updates u := (h.updates u).append acted

theorem tick (h : s.Inv) {now : ℤ} (hnow : s.clock ≤ now) : Race.Inv { s with clock := now } where
  positive := h.positive
  ahead := h.ahead
  past due hdue := (h.past due hdue).trans hnow
  once := h.once
  fires f := (h.fires f).frame hnow Iff.rfl fun _ ↦ rfl
  updates := h.updates

theorem get (h : s.Inv) {u : ℕ} {changes : Changes} {t : Race} (hstep : s.get u changes = some t) :
    t.Inv := by
  unfold Race.get at hstep
  split at hstep
  · split at hstep
    · exact Option.some.inj hstep ▸ h
    · refine Option.some.inj hstep ▸ h.setUpdate ⟨le_rfl, ?_⟩
      rw [List.take_length]
      exact h.ahead
  · cases hstep

theorem plan (hforward : api.calendar.Forward) (h : s.Inv) {u : ℕ} {checked : Except Exc Unit}
    {t : Race} (hstep : s.plan api u checked = some t) : t.Inv := by
  unfold Race.plan at hstep
  split at hstep
  · next current changes seen hphase =>
    have hread := h.updates u
    rw [hphase] at hread
    split at hstep
    · exact Option.some.inj hstep ▸ h.setUpdate trivial
    · next written hplan =>
      obtain ⟨hpositive, hnext⟩ := plan_ok hforward hplan
      refine Option.some.inj hstep ▸ h.setUpdate ⟨hread.1, hpositive, ?_⟩
      intro henabled next hwritten due hdue
      rcases hnext henabled next hwritten with hkept | hlater
      · exact hread.2 hkept.1 next hkept.2 due hdue
      · calc
          due ≤ s.clock := h.past due (List.mem_of_mem_take hdue)
          _ < next := hlater
  · cases hstep

theorem write (h : s.Inv) {u : ℕ} (hfresh : s.Fresh (.write u)) {t : Race}
    (hstep : s.write u = some t) : t.Inv := by
  unfold Race.write at hstep
  split at hstep
  · next written seen hphase hlock =>
    have hplanned := h.updates u
    rw [hphase] at hplanned
    obtain ⟨-, hpositive, htaken⟩ := hplanned
    have hdropped : written.Ahead (s.fired.drop seen) := by
      rw [Race.Fresh, hphase] at hfresh
      exact hfresh
    have hidle : (s.setUpdate u .idle).Inv := h.setUpdate trivial
    refine Option.some.inj hstep ▸
      { hidle with
        positive := hpositive
        ahead := ?_
        fires := fun f ↦ (h.fires f).frame le_rfl Iff.rfl fun hf ↦ ?_ }
    · intro henabled next hnext due hdue
      have hsplit : due ∈ s.fired.take seen ++ s.fired.drop seen := by
        rw [List.take_append_drop]
        exact hdue
      rcases List.mem_append.mp hsplit with htake | hdrop
      · exact htaken henabled next hnext due htake
      · exact hdropped henabled next hnext due hdrop
    · rw [hlock] at hf
      cases hf
  · cases hstep

theorem begin (h : s.Inv) {f : ℕ} {t : Race} (hstep : s.begin f = some t) : t.Inv := by
  unfold Race.begin at hstep
  split at hstep
  · next hphase =>
    have hidle := h.fires f
    rw [hphase] at hidle
    exact Option.some.inj hstep ▸ h.setFire ⟨hidle, le_rfl⟩
  · cases hstep

theorem select (h : s.Inv) {f : ℕ} {t : Race} (hstep : s.select f = some t) : t.Inv := by
  unfold Race.select at hstep
  split at hstep
  · next moment hphase =>
    have hwoken := h.fires f
    rw [hphase] at hwoken
    split at hstep
    · next hselected =>
      refine Option.some.inj hstep ▸ { h with fires := fun g ↦ ?_ }
      change (Function.update s.fires f (.holding moment s.row) g).Inv s.clock (some f) s.row g
      by_cases hg : g = f
      · rw [hg, Function.update_self]
        exact ⟨rfl, hwoken.2, rfl, hselected.2⟩
      · rw [Function.update_of_ne hg]
        refine (h.fires g).frame le_rfl ?_ fun _ ↦ rfl
        rw [hselected.1, Option.some.injEq]
        exact iff_of_false (by simp) (Ne.symm hg)
    · exact Option.some.inj hstep ▸ h.setFire hwoken.1
  · cases hstep

theorem submit (hforward : api.calendar.Forward) (h : s.Inv) {f : ℕ} {submission : Submission}
    {t : Race} (hstep : s.submit api f submission = some t) : t.Inv := by
  unfold Race.submit at hstep
  split at hstep
  · next moment held hphase =>
    have hholding := h.fires f
    rw [hphase] at hholding
    obtain ⟨hlock, hmoment, rfl, hdue⟩ := hholding
    split at hstep
    · refine Option.some.inj hstep ▸ h.finish h.positive ?_ (by simp) List.Pairwise.nil (by simp)
        (.inr rfl)
      rw [List.append_nil]
      exact h.ahead
    · next upcoming hadvance =>
      have hupcoming := advanceFrom_gt hforward h.positive _ hadvance
      exact Option.some.inj hstep ▸ h.setFire ⟨hlock, hmoment, rfl, hdue, hupcoming⟩
  · cases hstep

theorem commit (h : s.Inv) {f : ℕ} {t : Race} (hstep : s.commit f = some t) : t.Inv := by
  unfold Race.commit at hstep
  split at hstep
  · next moment held upcoming submission hphase =>
    have hsubmitted := h.fires f
    rw [hphase] at hsubmitted
    obtain ⟨hlock, hmoment, rfl, hdue, hupcoming⟩ := hsubmitted
    obtain ⟨hle, hlater⟩ := h.ahead.lt_due hdue
    split at hstep
    · cases hstep
    · refine Option.some.inj hstep ▸ h.finish h.positive ?_ ?_ (List.pairwise_singleton _ _) ?_
        (.inl hlock)
      · intro henabled next hnext due hacted
        obtain rfl : upcoming = next := Option.some.inj hnext
        rcases List.mem_append.mp hacted with hold | hnew
        · calc
            due < s.row.nextRun.getD 0 := hlater due hold
            _ ≤ moment := hle
            _ < upcoming := hupcoming
        · rw [List.mem_singleton.mp hnew]
          exact hle.trans_lt hupcoming
      · intro due hnew
        rw [List.mem_singleton.mp hnew]
        exact hle.trans hmoment
      · intro due hold due' hnew
        rw [List.mem_singleton.mp hnew]
        exact hlater due hold
  · cases hstep

theorem rollback (h : s.Inv) {f : ℕ} (hfresh : s.Fresh (.rollback f)) {t : Race}
    (hstep : s.rollback f = some t) : t.Inv := by
  have hfailed : (s.fires f).failed = [] := hfresh
  unfold Race.rollback at hstep
  split at hstep
  · cases hstep
  · rw [hfailed] at hstep
    refine Option.some.inj hstep ▸ h.finish h.positive ?_ (by simp) List.Pairwise.nil (by simp)
      (.inr rfl)
    rw [List.append_nil]
    exact h.ahead

/-- Every fresh step keeps the invariant. -/
theorem step (hforward : api.calendar.Forward) (h : s.Inv) {a : RaceAction} (hfresh : s.Fresh a)
    {t : Race} (hstep : (raceMachine api).step s a = some t) : t.Inv := by
  cases a with
  | tick now =>
    change (if s.clock ≤ now then some { s with clock := now } else none) = some t at hstep
    split at hstep
    · next hnow => exact Option.some.inj hstep ▸ h.tick hnow
    · cases hstep
  | get u changes => exact h.get hstep
  | plan u checked => exact plan hforward h hstep
  | write u => exact h.write hfresh hstep
  | begin f => exact h.begin hstep
  | select f => exact h.select hstep
  | submit f submission => exact submit hforward h hstep
  | commit f => exact h.commit hstep
  | rollback f => exact h.rollback hfresh hstep

theorem toOnce (h : s.Inv) : s.Once := by
  refine ⟨h.once, fun f due hacting ↦ ?_⟩
  have hfire := h.fires f
  cases hphase : s.fires f with
  | idle =>
    rw [hphase] at hacting
    cases hacting
  | woken moment =>
    rw [hphase] at hacting
    cases hacting
  | holding moment held =>
    rw [hphase] at hacting hfire
    obtain ⟨-, -, rfl, hdue⟩ := hfire
    obtain rfl := Option.some.inj hacting
    exact (h.ahead.lt_due hdue).2
  | submitted moment held upcoming submission =>
    rw [hphase] at hacting hfire
    obtain ⟨-, -, rfl, hdue, -⟩ := hfire
    obtain rfl := Option.some.inj hacting
    exact (h.ahead.lt_due hdue).2

end Race.Inv

theorem Race.start_inv {row : Row} (hpositive : row.trigger.Positive) (clock : ℤ) :
    (Race.start row clock).Inv where
  positive := hpositive
  ahead := fun _ _ _ _ hdue ↦ absurd hdue List.not_mem_nil
  past := fun _ hdue ↦ absurd hdue List.not_mem_nil
  once := List.Pairwise.nil
  fires := fun _ hlock ↦ by cases hlock
  updates := fun _ ↦ trivial

/-- While every update writes a row that is ahead of what was fired since it read, and no failed
`_fire` is rolled back, no due time is acted on twice. -/
theorem race_once (hforward : api.calendar.Forward) {row : Row}
    (hpositive : row.trigger.Positive) {clock : ℤ} {actions : List RaceAction}
    (hfresh : (raceMachine api).Meets Race.Fresh (Race.start row clock) actions) {s : Race}
    (hrun : (raceMachine api).run (Race.start row clock) actions = some s) : s.Once :=
  ((raceMachine api).invariant_run
    (fun _ _ _ h hC hstep ↦ Race.Inv.step hforward h hC hstep) hfresh hrun
    (Race.start_inv hpositive clock)).toOnce

/-! ## An update that straddles a tick -/

def hourlyApi : Api where
  calendar := endingCalendar
  dumps _ := str "\x7b\x7d"
  depth := 10

/-- A `_fire` from its start to its commit. -/
def fireActions (f : ℕ) (jobId : Str) : List RaceAction :=
  [.begin f, .select f, .submit f (.queued jobId), .commit f]

/-- New parameters are written before the tick. -/
theorem race_once_hourly :
    ∃ s, (raceMachine hourlyApi).run (Race.start hourlyRow 50)
      ([.tick 200, .get 0 { params := some (.obj []) }, .plan 0 (.ok ()), .write 0] ++
        fireActions 0 (str "a")) = some s ∧ s.Once := by
  have hsome : ((raceMachine hourlyApi).run (Race.start hourlyRow 50)
      ([.tick 200, .get 0 { params := some (.obj []) }, .plan 0 (.ok ()), .write 0] ++
        fireActions 0 (str "a"))).isSome = true := by decide +kernel
  obtain ⟨s, hs⟩ := Option.isSome_iff_exists.mp hsome
  refine ⟨s, hs, race_once endingCalendar_forward ?_ (by decide +kernel) hs⟩
  intro interval hinterval
  obtain rfl := Option.some.inj hinterval
  decide

/-- New parameters are written with the due time read before the tick, which is fired again. -/
theorem hourlyRow_fired_twice :
    ∃ s, (raceMachine hourlyApi).run (Race.start hourlyRow 50)
      ([.tick 200, .get 0 { params := some (.obj []) }] ++ fireActions 0 (str "a") ++
        [.plan 0 (.ok ()), .write 0] ++ fireActions 1 (str "b")) = some s ∧
      s.fired = [101, 101] ∧ ¬ s.Once := by
  have hfired : ((raceMachine hourlyApi).run (Race.start hourlyRow 50)
      ([.tick 200, .get 0 { params := some (.obj []) }] ++ fireActions 0 (str "a") ++
        [.plan 0 (.ok ()), .write 0] ++ fireActions 1 (str "b"))).map Race.fired =
      some [101, 101] := by decide +kernel
  obtain ⟨s, hs, hs'⟩ := Option.map_eq_some_iff.mp hfired
  refine ⟨s, hs, hs', fun honce ↦ ?_⟩
  have hpairwise := honce.1
  rw [hs'] at hpairwise
  exact absurd hpairwise (by decide)

end DatumSync.Schedules
