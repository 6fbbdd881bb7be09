import DatumSync.Schedules.Schedule
import Mathlib.Data.Int.ConditionallyCompleteOrder
import Mathlib.Data.List.Sort
import Mathlib.Order.ConditionallyCompleteLattice.Basic

/-!
# One tick of the scheduler

`run_due` reads the due rows and fires them one after the other, each in a transaction of its own.
What a submission raises is recorded and the row is advanced all the same; an exception anywhere
else in `_fire` ends the tick.
-/

namespace DatumSync.Schedules

open Python

/-- What `jobs.submit` comes to for a row.  A database error outside its savepoint leaves the
transaction of `_fire` aborted. -/
inductive Submission where
  | queued (jobId : Str)
  | failed (e : Exc) (aborted : Bool)

/-- What a tick asks for; submissions are numbered by the order of the tick. -/
structure Outside where
  calendar : Calendar
  /-- `jobs.submit(conn, repository, workspace, json.loads(params), ...)` -/
  submit : ℕ → Row → Submission
  /-- `type(exc).__name__` -/
  typeName : Exc → Str

structure Fired where
  schedule : Str
  jobId : Option Str
  error : Option Str
  nextRun : ℤ
  deriving DecidableEq

/-- `enabled AND next_run IS NOT NULL AND next_run <= moment` -/
def Row.isDue (row : Row) (moment : ℤ) : Bool :=
  row.enabled && row.nextRun.any fun next ↦ decide (next ≤ moment)

variable (outside : Outside)

def Submission.jobId : Submission → Option Str
  | queued jobId => some jobId
  | failed .. => none

/-- `f"{type(exc).__name__}: {exc}"` -/
def Submission.error (typeName : Exc → Str) : Submission → Option Str
  | queued _ => none
  | failed e _ => some (typeName e ++ str ": " ++ e.message)

/-- The statements that follow a submission are refused. -/
def Submission.isAborted : Submission → Bool
  | failed _ aborted => aborted
  | _ => false

/-- `UPDATE schedules SET last_run, last_job, next_run` -/
def Row.advanced (row : Row) (moment : ℤ) (jobId : Option Str) (upcoming : ℤ) : Row :=
  { row with lastRun := some moment, lastJob := jobId, nextRun := some upcoming }

def setRow (id : ℤ) (f : Row → Row) (rows : List Row) : List Row :=
  rows.map fun row ↦ if row.id = id then f row else row

/-- The dict `_fire` returns. -/
def Submission.toFired (submission : Submission) (typeName : Exc → Str) (row : Row)
    (upcoming : ℤ) : Fired where
  schedule := row.name
  jobId := submission.jobId
  error := submission.error typeName
  nextRun := upcoming

/-- `_fire`, the `i`-th of its tick. -/
def fire (i : ℕ) (moment id : ℤ) (rows : List Row) : Except Exc (List Row × Option Fired) :=
  match rows.find? fun row ↦ row.id == id && row.isDue moment with
  | none => .ok (rows, none)
  | some row =>
    match advance outside.calendar row.trigger (row.nextRun.getD 0) moment with
    | .error e => .error e
    | .ok upcoming =>
      let submission := outside.submit i row
      if submission.isAborted then
        .error (.raised .databaseError (str "current transaction is aborted"))
      else
        .ok (setRow id (·.advanced moment submission.jobId upcoming) rows,
          some (submission.toFired outside.typeName row upcoming))

/-- The loop of `run_due`: the table it leaves, and what it returns or raises. -/
def fireAll (moment : ℕ → ℤ) : (i : ℕ) → (ids : List ℤ) → List Row →
    List Row × Except Exc (List Fired)
  | _, [], rows => (rows, .ok [])
  | i, id :: rest, rows =>
    match fire outside i (moment i) id rows with
    | .error e => (rows, .error e)
    | .ok (rows, fired) =>
      let (rows, result) := fireAll moment (i + 1) rest rows
      (rows, result.map (fired.toList ++ ·))

/-- `SELECT id FROM schedules WHERE ... ORDER BY next_run` -/
def dueRows (moment : ℤ) (rows : List Row) : List Row :=
  (rows.filter fun row ↦ row.isDue moment).insertionSort
    fun a b ↦ a.nextRun.getD 0 ≤ b.nextRun.getD 0

/-- The moment of the `i`-th `_fire`: the argument of the tick, or the clock. -/
def momentOf (now : Option ℤ) (clock : ℕ → ℤ) (i : ℕ) : ℤ := now.getD (clock (i + 1))

def runDue (now : Option ℤ) (clock : ℕ → ℤ) (rows : List Row) :
    List Row × Except Exc (List Fired) :=
  fireAll outside (momentOf now clock) 0 ((dueRows (now.getD (clock 0)) rows).map Row.id) rows

/-- A row was fired at a moment and is due only after it. -/
def Row.Handled (moment : ℤ) (row : Row) : Prop :=
  row.lastRun = some moment ∧ ∃ upcoming, row.nextRun = some upcoming ∧ moment < upcoming

/-- Every due row was handled in the tick. -/
def Isolated (now : Option ℤ) (clock : ℕ → ℤ) (rows : List Row) : Prop :=
  ∀ p ∈ (dueRows (now.getD (clock 0)) rows).zipIdx,
    ∃ row ∈ (runDue outside now clock rows).1, row.id = p.1.id ∧
      row.Handled (momentOf now clock p.2)

/-- The next due time of a row can be computed, and its submission leaves the transaction usable. -/
def Clean (i : ℕ) (moment : ℤ) (row : Row) : Prop :=
  (∃ upcoming,
    advance outside.calendar row.trigger (row.nextRun.getD 0) moment = .ok upcoming) ∧
    (outside.submit i row).isAborted = false

variable {outside}

theorem find?_due {rows : List Row} (hids : (rows.map Row.id).Nodup) {row : Row} (hrow : row ∈ rows)
    {moment : ℤ} (hdue : row.isDue moment = true) :
    (rows.find? fun r ↦ r.id == row.id && r.isDue moment) = some row := by
  induction rows with
  | nil => exact absurd hrow List.not_mem_nil
  | cons first rest ih =>
    rw [List.map_cons, List.nodup_cons] at hids
    rcases List.mem_cons.mp hrow with rfl | hrest
    · rw [List.find?_cons_of_pos]
      rw [beq_self_eq_true, hdue]
      rfl
    · have hne : first.id ≠ row.id := fun h ↦ hids.1 (h ▸ List.mem_map_of_mem hrest)
      rw [List.find?_cons_of_neg, ih hids.2 hrest]
      simp [hne]

/-- A row whose next due time or submission fails ends the tick. -/
theorem fire_of_not_clean {rows : List Row} (hids : (rows.map Row.id).Nodup) {row : Row}
    (hrow : row ∈ rows) {i : ℕ} {moment : ℤ} (hdue : row.isDue moment = true)
    (hclean : ¬ Clean outside i moment row) :
    ∃ e, fire outside i moment row.id rows = .error e := by
  rw [fire, find?_due hids hrow hdue]
  dsimp only
  cases hadvance : advance outside.calendar row.trigger (row.nextRun.getD 0) moment with
  | error e => exact ⟨e, rfl⟩
  | ok upcoming =>
    cases haborted : (outside.submit i row).isAborted with
    | true => exact ⟨_, rfl⟩
    | false => exact absurd ⟨⟨upcoming, hadvance⟩, haborted⟩ hclean

/-- A clean row is advanced, whatever its submission raised. -/
theorem fire_of_clean {rows : List Row} (hids : (rows.map Row.id).Nodup) {row : Row}
    (hrow : row ∈ rows) {i : ℕ} {moment : ℤ} (hdue : row.isDue moment = true)
    (hclean : Clean outside i moment row) :
    ∃ upcoming fired,
      advance outside.calendar row.trigger (row.nextRun.getD 0) moment = .ok upcoming ∧
      fire outside i moment row.id rows = .ok
        (setRow row.id (·.advanced moment (outside.submit i row).jobId upcoming) rows, fired) := by
  obtain ⟨⟨upcoming, hadvance⟩, haborted⟩ := hclean
  refine ⟨upcoming, some ((outside.submit i row).toFired outside.typeName row upcoming), hadvance,
    ?_⟩
  rw [fire, find?_due hids hrow hdue]
  dsimp only
  rw [hadvance]
  dsimp only
  rw [haborted]
  rfl

theorem setRow_ids {f : Row → Row} (hf : ∀ row, (f row).id = row.id) (id : ℤ) (rows : List Row) :
    (setRow id f rows).map Row.id = rows.map Row.id := by
  rw [setRow, List.map_map]
  apply List.map_congr_left
  intro row _
  rw [Function.comp_apply]
  split
  · exact hf row
  · rfl

theorem mem_setRow_self {f : Row → Row} {row : Row} {rows : List Row} (h : row ∈ rows) :
    f row ∈ setRow row.id f rows :=
  List.mem_map.mpr ⟨row, h, if_pos rfl⟩

theorem mem_setRow_other {f : Row → Row} {id : ℤ} {row : Row} {rows : List Row} (h : row ∈ rows)
    (hne : row.id ≠ id) : row ∈ setRow id f rows :=
  List.mem_map.mpr ⟨row, h, if_neg hne⟩

/-- What a `_fire` that returns has done to the table. -/
theorem fire_ok {i : ℕ} {moment id : ℤ} {rows rows' : List Row} {fired : Option Fired}
    (h : fire outside i moment id rows = .ok (rows', fired)) :
    rows' = rows ∨ ∃ jobId upcoming, rows' = setRow id (·.advanced moment jobId upcoming) rows := by
  unfold fire at h
  split at h
  · obtain ⟨rfl, -⟩ := Prod.mk.inj (Except.ok.inj h)
    exact .inl rfl
  · split at h
    · cases h
    · dsimp only at h
      split at h
      · cases h
      · obtain ⟨rfl, -⟩ := Prod.mk.inj (Except.ok.inj h)
        exact .inr ⟨_, _, rfl⟩

/-- The loop leaves the rows of other ids as they are. -/
theorem fireAll_frame {moment : ℕ → ℤ} {i : ℕ} {ids : List ℤ} {rows : List Row} {row : Row}
    (hrow : row ∈ rows) (hid : row.id ∉ ids) : row ∈ (fireAll outside moment i ids rows).1 := by
  induction ids generalizing i rows with
  | nil => exact hrow
  | cons id rest ih =>
    rw [List.mem_cons, not_or] at hid
    rw [fireAll]
    cases hfire : fire outside i (moment i) id rows with
    | error e => exact hrow
    | ok fired =>
      refine ih ?_ hid.2
      rcases fire_ok hfire with h | ⟨jobId, upcoming, h⟩
      · rw [h]
        exact hrow
      · rw [h]
        exact mem_setRow_other hrow hid.1

theorem eq_of_id_eq {rows : List Row} (hids : (rows.map Row.id).Nodup) {a b : Row} (ha : a ∈ rows)
    (hb : b ∈ rows) (h : a.id = b.id) : a = b :=
  List.inj_on_of_nodup_map hids ha hb h

/-- A row that is due is not handled. -/
theorem not_handled_of_due {row : Row} {start moment : ℤ} (hdue : row.isDue start = true)
    (hlater : start ≤ moment) : ¬ row.Handled moment := by
  rintro ⟨-, upcoming, hnext, hupcoming⟩
  rw [Row.isDue, hnext, Option.any_some, Bool.and_eq_true, decide_eq_true_eq] at hdue
  exact absurd (hdue.2.trans hlater) (not_le.mpr hupcoming)

theorem isDue_mono {row : Row} {start moment : ℤ} (hdue : row.isDue start = true)
    (hlater : start ≤ moment) : row.isDue moment = true := by
  unfold Row.isDue at hdue ⊢
  rw [Bool.and_eq_true] at hdue ⊢
  refine ⟨hdue.1, ?_⟩
  cases hnext : row.nextRun with
  | none =>
    rw [hnext] at hdue
    exact absurd hdue.2 (by simp)
  | some next =>
    rw [hnext, Option.any_some, decide_eq_true_eq] at hdue
    rw [Option.any_some, decide_eq_true_eq]
    exact hdue.2.trans hlater

/-- The loop handles every due row exactly when all of them are clean. -/
theorem fireAll_handled_iff (hforward : outside.calendar.Forward) {start : ℤ} {moment : ℕ → ℤ}
    (hlater : ∀ i, start ≤ moment i) {i : ℕ} {due rows : List Row}
    (hids : (rows.map Row.id).Nodup) (hdueIds : (due.map Row.id).Nodup)
    (hrows : ∀ row ∈ due, row ∈ rows) (hdue : ∀ row ∈ due, row.isDue start = true)
    (hpositive : ∀ row ∈ due, row.trigger.Positive) :
    (∀ p ∈ due.zipIdx i, ∃ row ∈ (fireAll outside moment i (due.map Row.id) rows).1,
      row.id = p.1.id ∧ row.Handled (moment p.2)) ↔
      ∀ p ∈ due.zipIdx i, Clean outside p.2 (moment p.2) p.1 := by
  induction due generalizing i rows with
  | nil => exact iff_of_true (by simp) (by simp)
  | cons row rest ih =>
    rw [List.map_cons, List.nodup_cons] at hdueIds
    have hrow := hrows row List.mem_cons_self
    have hrowDue := isDue_mono (hdue row List.mem_cons_self) (hlater i)
    rw [List.zipIdx_cons, List.forall_mem_cons, List.forall_mem_cons, List.map_cons, fireAll]
    by_cases hclean : Clean outside i (moment i) row
    · obtain ⟨upcoming, fired, hadvance, hfire⟩ := fire_of_clean hids hrow hrowDue hclean
      have hlaterRow : moment i < upcoming :=
        advanceFrom_gt hforward (hpositive row List.mem_cons_self) _ hadvance
      rw [hfire]
      dsimp only
      have hnewIds : ((setRow row.id (·.advanced (moment i) (outside.submit i row).jobId upcoming)
          rows).map Row.id).Nodup := by
        rw [setRow_ids fun _ ↦ by rfl]
        exact hids
      have hrest := @ih (i + 1) _ hnewIds hdueIds.2
        (fun other hother ↦ mem_setRow_other (hrows other (List.mem_cons_of_mem _ hother))
          fun h ↦ hdueIds.1 (h ▸ List.mem_map_of_mem hother))
        (fun other hother ↦ hdue other (List.mem_cons_of_mem _ hother))
        (fun other hother ↦ hpositive other (List.mem_cons_of_mem _ hother))
      rw [hrest]
      refine and_congr_left fun _ ↦ iff_of_true ?_ hclean
      exact ⟨_, fireAll_frame (mem_setRow_self hrow) hdueIds.1, rfl, rfl, upcoming, rfl, hlaterRow⟩
    · obtain ⟨e, hfire⟩ := fire_of_not_clean hids hrow hrowDue hclean
      rw [hfire]
      refine iff_of_false ?_ fun h ↦ hclean h.1
      rintro ⟨⟨row', hrow', hid, hhandled⟩, -⟩
      obtain rfl := eq_of_id_eq hids hrow' hrow hid
      exact not_handled_of_due (hdue row' List.mem_cons_self) (hlater i) hhandled

/-- A tick handles every due schedule exactly when it can compute the next due time of each and no
submission leaves its transaction aborted. -/
theorem runDue_isolated_iff (hforward : outside.calendar.Forward) {now : Option ℤ} {clock : ℕ → ℤ}
    (hclock : Monotone clock) {rows : List Row} (hids : (rows.map Row.id).Nodup)
    (hpositive : ∀ row ∈ rows, row.trigger.Positive) :
    Isolated outside now clock rows ↔
      ∀ p ∈ (dueRows (now.getD (clock 0)) rows).zipIdx,
        Clean outside p.2 (momentOf now clock p.2) p.1 := by
  have hperm : (dueRows (now.getD (clock 0)) rows).Perm
      (rows.filter fun row ↦ row.isDue (now.getD (clock 0))) := List.perm_insertionSort _ _
  have hmem : ∀ row ∈ dueRows (now.getD (clock 0)) rows,
      row ∈ rows ∧ row.isDue (now.getD (clock 0)) = true :=
    fun row hrow ↦ List.mem_filter.mp (hperm.mem_iff.mp hrow)
  have hdueIds : ((dueRows (now.getD (clock 0)) rows).map Row.id).Nodup :=
    (hperm.map Row.id).nodup_iff.mpr (hids.sublist (List.filter_sublist.map Row.id))
  have hlater : ∀ i, now.getD (clock 0) ≤ momentOf now clock i := by
    intro i
    cases now with
    | none => exact hclock (Nat.zero_le _)
    | some moment => exact le_rfl
  exact fireAll_handled_iff hforward hlater hids hdueIds (fun row h ↦ (hmem row h).1)
    (fun row h ↦ (hmem row h).2) fun row h ↦ hpositive row (hmem row h).1

/-! ## A cron expression that ends -/

/-- One known zone; cron expressions have one date, the moment 100. -/
def endingCalendar : Calendar where
  zoneInfo name :=
    if name = str "UTC" then .ok () else .error (.raised .zoneInfoNotFoundError name)
  isValid _ := true
  getNext _ _ moment :=
    if moment < 100 then .ok 100 else .error (.raised .otherError (str "no further date"))
  reprOf := id

/-- Submissions of one workspace fail, as those of an unpublished one do. -/
def endingOutside : Outside where
  calendar := endingCalendar
  submit _ row :=
    if row.workspace = str "gone" then
      .failed (.raised .workspaceNotFound (str "no published workspace")) false
    else .queued (str "7")
  typeName _ := str "WorkspaceNotFound"

theorem endingCalendar_forward : endingCalendar.Forward := by
  intro cron zone moment following h
  unfold endingCalendar at h
  dsimp only at h
  split at h
  · next hlt =>
    obtain rfl := Except.ok.inj h
    exact hlt
  · cases h

/-- Due at the last date of its expression. -/
def endingRow : Row where
  id := 1
  name := str "ending"
  repository := str "r"
  workspace := str "w"
  params := str "\x7b\x7d"
  trigger := { cron := some (str "0 0 1 1 * 0 2027"), intervalS := none, timezone := str "UTC" }
  enabled := true
  nextRun := some 100

/-- Due right after it, of a workspace that is not published. -/
def hourlyRow : Row where
  id := 2
  name := str "hourly"
  repository := str "r"
  workspace := str "gone"
  params := str "\x7b\x7d"
  trigger := { cron := none, intervalS := some 3600, timezone := str "UTC" }
  enabled := true
  nextRun := some 101

/-- Due after both. -/
def nightlyRow : Row where
  id := 3
  name := str "nightly"
  repository := str "r"
  workspace := str "w"
  params := str "\x7b\x7d"
  trigger := { cron := none, intervalS := some 86400, timezone := str "UTC" }
  enabled := true
  nextRun := some 102

/-- The first of two due schedules cannot be submitted. -/
theorem runDue_isolated_iff_gone :
    Isolated endingOutside none (fun i ↦ 200 + i) [hourlyRow, nightlyRow] ↔
      ∀ p ∈ (dueRows 200 [hourlyRow, nightlyRow]).zipIdx,
        Clean endingOutside p.2 (momentOf none (fun i ↦ 200 + i) p.2) p.1 := by
  refine runDue_isolated_iff endingCalendar_forward ?_ (by decide) ?_
  · exact fun a b hab ↦ by simpa using hab
  · intro row hrow s hs
    obtain rfl | rfl := List.mem_pair.mp hrow
    · obtain rfl := Option.some.inj hs
      decide
    · obtain rfl := Option.some.inj hs
      decide

/-- The expression without a further date ends the tick: neither schedule is advanced. -/
theorem endingRow_not_isolated :
    (runDue endingOutside none (fun i ↦ 200 + i) [endingRow, hourlyRow]).1 =
        [endingRow, hourlyRow] ∧
      ¬ Isolated endingOutside none (fun i ↦ 200 + i) [endingRow, hourlyRow] := by
  have hrows : (runDue endingOutside none (fun i ↦ 200 + i) [endingRow, hourlyRow]).1 =
      [endingRow, hourlyRow] := by decide +kernel
  refine ⟨hrows, fun h ↦ ?_⟩
  obtain ⟨row, hrow, hid, hhandled⟩ := h (hourlyRow, 1) (by decide +kernel)
  rw [hrows] at hrow
  obtain rfl := eq_of_id_eq (by decide) hrow
    (List.mem_cons_of_mem _ (List.mem_singleton_self _)) hid
  have hdue : hourlyRow.isDue 200 = true := by decide
  exact not_handled_of_due hdue (by decide) hhandled

end DatumSync.Schedules
