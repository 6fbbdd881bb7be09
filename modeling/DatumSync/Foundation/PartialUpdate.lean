import Mathlib.Logic.Function.Basic
import DatumSync.Foundation.Machine

/-!
# Partial updates by read, merge and write

An update reads a row, merges the fields its patch asks for into what it has read, and writes the
merged row back in a second statement, unless the merged row is refused.  Several updates of one row
are interleaved.  Each of them may be valid on the row they start from, and still a change can be
missing from the row when they have ended: an update that writes a field it was not asked for
writes what it has read, and an update may be refused on account of what another has changed.  That
these are the only ways in which updates of disjoint fields lose a change is
`kept_iff_unspoiled`.
-/

namespace DatumSync.Foundation

/-- How patches change the fields of a row. -/
structure Patching (Row Patch Field : Type*) (Value : Field → Type*) where
  get : Row → ∀ f, Value f
  /-- What a patch asks a field to be; `none` where it does not touch it. -/
  asked : Patch → ∀ f, Option (Value f)
  /-- What an update that has read the row writes to a field its patch does not touch; `none` where
  it leaves the field to the row. -/
  carried : Row → ∀ f, Option (Value f)
  /-- The patch passes every check on the row that was read. -/
  Valid : Patch → Row → Prop
  /-- The write of an update that has read the row; `none` where it is refused. -/
  update : Patch → Row → Option (Row → Row)
  isSome_update : ∀ {patch read}, (update patch read).isSome = true ↔ Valid patch read
  get_update : ∀ {patch read write}, update patch read = some write → ∀ now f,
    get (write now) f = (asked patch f).getD ((carried read f).getD (get now f))

namespace Patching

variable {Row Patch Field ι : Type*} {Value : Field → Type*}

inductive Phase (Row : Type*) where
  | idle
  | read (row : Row)
  | acknowledged
  | refused

/-- The update has returned or raised. -/
inductive Phase.Ended : Phase Row → Prop
  | acknowledged : Phase.acknowledged.Ended
  | refused : Phase.refused.Ended

structure State (Row ι : Type*) where
  row : Row
  phases : ι → Phase Row

/-- The two statements of an update. -/
inductive Action (ι : Type*) where
  | read (u : ι)
  | write (u : ι)

/-- A row that no update has read yet. -/
def State.start (row : Row) : State Row ι where
  row := row
  phases _ := .idle

variable [DecidableEq ι] (P : Patching Row Patch Field Value) (patches : ι → Patch)

/-- The second statement of an update; one that is refused writes nothing. -/
def write (s : State Row ι) (u : ι) (seen : Row) : State Row ι :=
  match P.update (patches u) seen with
  | none => { s with phases := Function.update s.phases u .refused }
  | some write => { row := write s.row, phases := Function.update s.phases u .acknowledged }

/-- The updates of one row, statement by statement. -/
def machine : Machine (State Row ι) (Action ι) where
  step s
    | .read u =>
      match s.phases u with
      | .idle => some { s with phases := Function.update s.phases u (.read s.row) }
      | _ => none
    | .write u =>
      match s.phases u with
      | .read seen => some (P.write patches s u seen)
      | _ => none

/-- No two patches touch a common field. -/
def Disjoint : Prop :=
  ∀ u v, u ≠ v → ∀ f, P.asked (patches u) f = none ∨ P.asked (patches v) f = none

/-- The row is as the patch asks. -/
def Has (row : Row) (patch : Patch) : Prop :=
  ∀ f value, P.asked patch f = some value → P.get row f = value

/-- The row has every change of every update that has ended, one that was refused included. -/
def Kept (s : State Row ι) : Prop :=
  ∀ u, (s.phases u).Ended → P.Has s.row (patches u)

/-- The condition on the second statement of an update, where all started from the row `start`.  An
update that has read a row others have changed is not refused on it, unless the row is as its patch
asks; and one that goes through carries back no other value than the row's for a field that an
ended update has changed. -/
def Unspoiled (start : Row) (s : State Row ι) : Action ι → Prop
  | .read _ => True
  | .write u => ∀ seen, s.phases u = .read seen →
      (seen ≠ start → P.Valid (patches u) seen ∨ P.Has s.row (patches u)) ∧
        (P.Valid (patches u) seen → ∀ v, (s.phases v).Ended → ∀ f, P.asked (patches v) f ≠ none →
          P.asked (patches u) f = none → ∀ value, P.carried seen f = some value →
            P.get s.row f = value)

variable {P patches}

theorem valid_of_update {patch : Patch} {read : Row} {write : Row → Row}
    (h : P.update patch read = some write) : P.Valid patch read := by
  rw [← P.isSome_update, h]
  rfl

theorem not_valid_of_update {patch : Patch} {read : Row} (h : P.update patch read = none) :
    ¬ P.Valid patch read := by
  rw [← P.isSome_update, h]
  exact Bool.false_ne_true

theorem step_read {s t : State Row ι} {u : ι}
    (hstep : (P.machine patches).step s (.read u) = some t) :
    t.row = s.row ∧ ∀ v, (t.phases v).Ended → (s.phases v).Ended := by
  simp only [machine] at hstep
  split at hstep
  · rw [← Option.some.inj hstep]
    refine ⟨rfl, fun v hv ↦ ?_⟩
    change (Function.update s.phases u (.read s.row) v).Ended at hv
    by_cases hvu : v = u
    · rw [hvu, Function.update_self] at hv
      cases hv
    · rwa [Function.update_of_ne hvu] at hv
  · cases hstep

/-- The second statement of an update that had read `seen` either writes nothing or merges. -/
theorem step_write {s t : State Row ι} {u : ι}
    (hstep : (P.machine patches).step s (.write u) = some t) :
    ∃ seen, s.phases u = .read seen ∧
      ((P.update (patches u) seen = none ∧ t.row = s.row ∧
          t.phases = Function.update s.phases u .refused) ∨
        ∃ write, P.update (patches u) seen = some write ∧ t.row = write s.row ∧
          t.phases = Function.update s.phases u .acknowledged) := by
  simp only [machine] at hstep
  split at hstep
  · next seen hseen =>
    refine ⟨seen, hseen, ?_⟩
    rw [← Option.some.inj hstep, write]
    cases hupdate : P.update (patches u) seen with
    | none => exact .inl ⟨rfl, rfl, rfl⟩
    | some write => exact .inr ⟨write, rfl, rfl, rfl⟩
  · cases hstep

omit [DecidableEq ι] in
/-- A merge that carries back no other value than the row's keeps the changes of the others. -/
theorem Has.merge {u v : ι} (hdisjoint : P.Disjoint patches) (hvu : v ≠ u) {seen now : Row}
    {write : Row → Row} (hupdate : P.update (patches u) seen = some write)
    (hnow : P.Has now (patches v))
    (hcarried : ∀ f, P.asked (patches v) f ≠ none → P.asked (patches u) f = none →
      ∀ value, P.carried seen f = some value → P.get now f = value) :
    P.Has (write now) (patches v) := by
  intro f value hasked
  have hask : P.asked (patches v) f ≠ none := by
    rw [hasked]
    exact Option.some_ne_none value
  have hother : P.asked (patches u) f = none := (hdisjoint v u hvu f).resolve_left hask
  rw [P.get_update hupdate now f, hother, Option.getD_none]
  cases hold : P.carried seen f with
  | none => exact hnow f value hasked
  | some old =>
    calc old = P.get now f := (hcarried f hask hother old hold).symm
      _ = value := hnow f value hasked

/-- A step that meets the condition keeps every change of the updates that have ended. -/
theorem Kept.step (hdisjoint : P.Disjoint patches) {start : Row}
    (hvalid : ∀ u, P.Valid (patches u) start) {s t : State Row ι} {a : Action ι}
    (hkept : P.Kept patches s) (hunspoiled : P.Unspoiled patches start s a)
    (hstep : (P.machine patches).step s a = some t) : P.Kept patches t := by
  intro v hv
  cases a with
  | read u =>
    obtain ⟨hrow, hphases⟩ := step_read hstep
    rw [hrow]
    exact hkept v (hphases v hv)
  | write u =>
    obtain ⟨seen, hseen, hcases⟩ := step_write hstep
    obtain ⟨hspoiled, hcarried⟩ := hunspoiled seen hseen
    obtain ⟨hnone, hrow, hphases⟩ | ⟨write, hupdate, hrow, hphases⟩ := hcases
    · rw [hrow]
      rw [hphases] at hv
      by_cases hvu : v = u
      · rw [hvu]
        have hinvalid := not_valid_of_update hnone
        refine (hspoiled ?_).resolve_left hinvalid
        intro hstart
        exact hinvalid (hstart ▸ hvalid u)
      · rw [Function.update_of_ne hvu] at hv
        exact hkept v hv
    · rw [hrow]
      rw [hphases] at hv
      by_cases hvu : v = u
      · intro f value hasked
        rw [P.get_update hupdate s.row f, ← hvu, hasked, Option.getD_some]
      · rw [Function.update_of_ne hvu] at hv
        exact (hkept v hv).merge hdisjoint hvu hupdate
          (hcarried (valid_of_update hupdate) v hv)

/-- After a step that does not meet the condition a change of an ended update is missing. -/
theorem Kept.lost {start : Row} {s t : State Row ι} {a : Action ι} (hkept : P.Kept patches s)
    (hspoiled : ¬ P.Unspoiled patches start s a)
    (hstep : (P.machine patches).step s a = some t) : ¬ P.Kept patches t := by
  intro hafter
  cases a with
  | read u => exact hspoiled trivial
  | write u =>
    apply hspoiled
    intro seen hseen
    obtain ⟨seen', hseen', hcases⟩ := step_write hstep
    rw [hseen] at hseen'
    injection hseen' with hsame
    subst hsame
    obtain ⟨hnone, hrow, hphases⟩ | ⟨write, hupdate, hrow, hphases⟩ := hcases
    · refine ⟨fun _ ↦ .inr ?_, fun hgoes ↦ absurd hgoes (not_valid_of_update hnone)⟩
      have hended : (t.phases u).Ended := by
        rw [hphases, Function.update_self]
        exact .refused
      exact hrow ▸ hafter u hended
    · refine ⟨fun _ ↦ .inl (valid_of_update hupdate), ?_⟩
      intro _ v hv f hask hother old hold
      obtain ⟨value, hvalue⟩ := Option.ne_none_iff_exists'.mp hask
      have hvu : v ≠ u := by
        intro hvu
        rw [hvu, hseen] at hv
        cases hv
      have hlater : (t.phases v).Ended := by
        rwa [hphases, Function.update_of_ne hvu]
      calc P.get s.row f = value := hkept v hv f value hvalue
        _ = P.get t.row f := (hafter v hlater f value hvalue).symm
        _ = old := by
          rw [hrow, P.get_update hupdate s.row f, hother, hold, Option.getD_none,
            Option.getD_some]

omit [DecidableEq ι] in
theorem kept_start (row : Row) : P.Kept patches (State.start row) := by
  intro u hu
  cases hu

/-- Where updates of disjoint fields are each valid on the row they start from, every state of a
run has every change of the updates that have ended exactly when each step meets the condition. -/
theorem kept_iff_unspoiled (hdisjoint : P.Disjoint patches) {row : Row}
    (hvalid : ∀ u, P.Valid (patches u) row) {s : State Row ι} {actions : List (Action ι)}
    (hrun : (P.machine patches).run (.start row) actions = some s) :
    (P.machine patches).Always (P.Kept patches) (.start row) actions ↔
      (P.machine patches).Meets (P.Unspoiled patches row) (.start row) actions :=
  Machine.always_iff_meets _ (fun _ h ↦ h)
    (fun _ _ _ h hC hstep ↦ h.step hdisjoint hvalid hC hstep)
    (fun _ _ _ h hC hstep ↦ h.lost hC hstep) hrun (kept_start row)

end Patching

end DatumSync.Foundation
