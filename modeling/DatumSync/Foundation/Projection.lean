import DatumSync.Foundation.Machine
import Mathlib.Data.List.Induction

/-!
# Runs of a component, and runs with their past

A step of a machine may be no step of a component of it, one step, or several; the component then
runs through what the whole run does to it.  The other rule is an invariant that speaks of the
actions taken so far.
-/

namespace DatumSync.Foundation

namespace Machine

variable {σ α τ β : Type*} {M : Machine σ α} {N : Machine τ β} {view : σ → τ} {events : α → List β}
  {s u : σ} {actions : List α}

/-- Every step of `M` is a run of `N`, on what `N` sees of the state. -/
def Projects (M : Machine σ α) (N : Machine τ β) (view : σ → τ) (events : α → List β) : Prop :=
  ∀ s a t, M.step s a = some t → N.run (view s) (events a) = some (view t)

theorem Projects.run (h : M.Projects N view events) (hrun : M.run s actions = some u) :
    N.run (view s) (actions.flatMap events) = some (view u) := by
  induction actions generalizing s with
  | nil =>
    rw [run_nil, Option.some.injEq] at hrun
    rw [List.flatMap_nil, run_nil, hrun]
  | cons a rest ih =>
    obtain ⟨t, ht, hrest⟩ := M.run_cons_eq_some.mp hrun
    rw [List.flatMap_cons]
    exact N.run_append_eq_some.mpr ⟨view t, h s a t ht, ih hrest⟩

/-- What holds before the first action and is kept by one action more holds after the run. -/
theorem invariant_past {I : List α → σ → Prop} (hinit : I [] s)
    (hstep : ∀ past a t u, M.run s past = some t → I past t → M.step t a = some u →
      I (past ++ [a]) u)
    (hrun : M.run s actions = some u) : I actions u := by
  induction actions using List.reverseRecOn generalizing u with
  | nil =>
    rw [run_nil, Option.some.injEq] at hrun
    exact hrun ▸ hinit
  | append_singleton past a ih =>
    obtain ⟨t, hpast, hlast⟩ := M.run_append_eq_some.mp hrun
    obtain ⟨v, hv, hnil⟩ := M.run_cons_eq_some.mp hlast
    rw [run_nil, Option.some.injEq] at hnil
    exact hstep past a t u hpast (ih hpast) (hnil ▸ hv)

end Machine

end DatumSync.Foundation
