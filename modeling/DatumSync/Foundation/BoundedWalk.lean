import Mathlib.Data.Nat.Basic
import Mathlib.Order.Basic

/-!
# A walk with a bounded number of steps

A loop takes a step that may fail, ends at the first result that meets a test, and has a last
resort for when its steps run out.
-/

namespace DatumSync.Foundation

variable {ε α : Type*} (step : α → Except ε α) (stop : α → Bool) (late : Except ε α)

/-- Step until a result meets `stop`, `late` when the steps run out. -/
def walk : (steps : ℕ) → α → Except ε α
  | 0, _ => late
  | steps + 1, x =>
    match step x with
    | .error e => .error e
    | .ok y => if stop y then .ok y else walk steps y

variable {step stop late}

/-- A walk goes along a path while the points of the path do not meet the test. -/
theorem walk_path {path : ℕ → α} {j : ℕ} (steps : ℕ)
    (hstep : ∀ i < j, step (path i) = .ok (path (i + 1)))
    (hgo : ∀ i < j, stop (path (i + 1)) = false) :
    walk step stop late (steps + j) (path 0) = walk step stop late steps (path j) := by
  induction j generalizing steps with
  | zero => rfl
  | succ j ih =>
    have hj :
        walk step stop late (steps + 1) (path j) = walk step stop late steps (path (j + 1)) := by
      rw [walk]
      simp only [hstep j (Nat.lt_succ_self j), hgo j (Nat.lt_succ_self j), Bool.false_eq_true,
        if_false]
    calc walk step stop late (steps + (j + 1)) (path 0)
        = walk step stop late (steps + 1 + j) (path 0) := by
          congr 1
          omega
      _ = walk step stop late (steps + 1) (path j) :=
          ih (steps + 1) (fun i hi ↦ hstep i (hi.trans (Nat.lt_succ_self j)))
            fun i hi ↦ hgo i (hi.trans (Nat.lt_succ_self j))
      _ = walk step stop late steps (path (j + 1)) := hj

/-- The steps run out on a path none of whose points meets the test. -/
theorem walk_late {path : ℕ → α} {steps : ℕ}
    (hstep : ∀ i < steps, step (path i) = .ok (path (i + 1)))
    (hgo : ∀ i < steps, stop (path (i + 1)) = false) :
    walk step stop late steps (path 0) = late := by
  have h := @walk_path _ _ _ _ late _ _ 0 hstep hgo
  rw [Nat.zero_add] at h
  exact h

/-- What holds of the points that are walked over, and of the result of each step that ends the
walk, holds of what a walk comes to. -/
theorem walk_induction {Over Result : α → Prop}
    (hstep : ∀ x, Over x → ∃ y, step x = .ok y ∧ if stop y then Result y else Over y)
    (hlate : ∃ y, late = .ok y ∧ Result y) (steps : ℕ) {x : α} (hx : Over x) :
    ∃ y, walk step stop late steps x = .ok y ∧ Result y := by
  induction steps generalizing x with
  | zero => exact hlate
  | succ steps ih =>
    obtain ⟨y, hy, hnext⟩ := hstep x hx
    simp only [walk, hy]
    cases hstop : stop y with
    | true =>
      rw [hstop, if_pos rfl] at hnext
      exact ⟨y, by simp, hnext⟩
    | false =>
      rw [hstop, if_neg Bool.false_ne_true] at hnext
      simpa using ih hnext

end DatumSync.Foundation
