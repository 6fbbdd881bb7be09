import Mathlib.Algebra.BigOperators.Group.List.Basic
import Mathlib.Algebra.GroupWithZero.Nat

/-!
# Partial deterministic machines and their runs

A machine has a step function that is undefined where an action is not enabled.  Interleavings of
several parties are runs of one machine whose actions name the party and its next step, so a
property of every interleaving is a property of every action list.

`Meets` says that each step of a run satisfies a condition on the state before the step, `Always`
that each state of a run has a property.  The rules below derive facts about whole runs from facts
about one step: an invariant that steps meeting the condition preserve, and the first step of a run
that does not meet it.
-/

namespace DatumSync.Foundation

/-- A transition function on states `σ`; `none` means that the action is not enabled. -/
structure Machine (σ α : Type*) where
  step : σ → α → Option σ

namespace Machine

variable {σ α : Type*} (M : Machine σ α)

/-- Take the actions in order; undefined as soon as one of them is not enabled. -/
def run : σ → List α → Option σ
  | s, [] => some s
  | s, a :: rest => (M.step s a).bind fun t ↦ run t rest

@[simp]
theorem run_nil (s : σ) : M.run s [] = some s := rfl

theorem run_cons (s : σ) (a : α) (rest : List α) :
    M.run s (a :: rest) = (M.step s a).bind fun t ↦ M.run t rest := rfl

theorem run_cons_eq_some {s u : σ} {a : α} {rest : List α} :
    M.run s (a :: rest) = some u ↔ ∃ t, M.step s a = some t ∧ M.run t rest = some u := by
  rw [run_cons, Option.bind_eq_some_iff]

theorem run_append (s : σ) (first second : List α) :
    M.run s (first ++ second) = (M.run s first).bind fun t ↦ M.run t second := by
  induction first generalizing s with
  | nil => rfl
  | cons a rest ih =>
    rw [List.cons_append, run_cons, run_cons, Option.bind_assoc]
    congr 1
    funext t
    exact ih t

theorem run_append_eq_some {s u : σ} {first second : List α} :
    M.run s (first ++ second) = some u ↔
      ∃ t, M.run s first = some t ∧ M.run t second = some u := by
  rw [run_append, Option.bind_eq_some_iff]

/-- Every enabled step of the run satisfies `C` in the state before the step. -/
def Meets (C : σ → α → Prop) : σ → List α → Prop
  | _, [] => True
  | s, a :: rest => C s a ∧ ∀ t, M.step s a = some t → Meets C t rest

/-- Whether a run meets a decidable condition is decided by taking its steps. -/
instance decidableMeets (C : σ → α → Prop) [∀ s a, Decidable (C s a)] :
    ∀ (s : σ) (actions : List α), Decidable (M.Meets C s actions)
  | _, [] => isTrue trivial
  | s, a :: rest =>
    match h : M.step s a with
    | none => decidable_of_iff (C s a)
        ⟨fun hC ↦ ⟨hC, fun t ht ↦ by rw [h] at ht; cases ht⟩, And.left⟩
    | some t =>
      have := decidableMeets C t rest
      decidable_of_iff (C s a ∧ M.Meets C t rest)
        ⟨fun hC ↦ ⟨hC.1, fun u hu ↦ by rw [h] at hu; exact Option.some.inj hu ▸ hC.2⟩,
          fun hC ↦ ⟨hC.1, hC.2 t h⟩⟩

theorem meets_of_forall {C : σ → α → Prop} (h : ∀ s a, C s a) {s : σ} {actions : List α} :
    M.Meets C s actions := by
  induction actions generalizing s with
  | nil => trivial
  | cons a rest ih => exact ⟨h s a, fun _ _ ↦ ih⟩

theorem meets_and {C D : σ → α → Prop} {s : σ} {actions : List α}
    (hC : M.Meets C s actions) (hD : M.Meets D s actions) :
    M.Meets (fun s a ↦ C s a ∧ D s a) s actions := by
  induction actions generalizing s with
  | nil => trivial
  | cons a rest ih =>
    exact ⟨⟨hC.1, hD.1⟩, fun t ht ↦ ih (hC.2 t ht) (hD.2 t ht)⟩

theorem meets_append {C : σ → α → Prop} {s t : σ} {first second : List α}
    (h : M.Meets C s (first ++ second)) (hrun : M.run s first = some t) :
    M.Meets C s first ∧ M.Meets C t second := by
  induction first generalizing s with
  | nil =>
    rw [run_nil, Option.some.injEq] at hrun
    exact ⟨trivial, hrun ▸ h⟩
  | cons a rest ih =>
    obtain ⟨u, hu, hrest⟩ := M.run_cons_eq_some.mp hrun
    refine ⟨⟨h.1, fun u' hu' ↦ ?_⟩, (ih (h.2 u hu) hrest).2⟩
    rw [hu, Option.some.injEq] at hu'
    exact hu' ▸ (ih (h.2 u hu) hrest).1

/-- What every step meeting `C` preserves holds at the end of every run that meets `C`. -/
theorem invariant_run {I : σ → Prop} {C : σ → α → Prop}
    (hstep : ∀ s a t, I s → C s a → M.step s a = some t → I t) {s u : σ} {actions : List α}
    (hmeets : M.Meets C s actions) (hrun : M.run s actions = some u) (hinit : I s) : I u := by
  induction actions generalizing s with
  | nil =>
    rw [run_nil, Option.some.injEq] at hrun
    exact hrun ▸ hinit
  | cons a rest ih =>
    obtain ⟨t, ht, hrest⟩ := M.run_cons_eq_some.mp hrun
    exact ih (hmeets.2 t ht) hrest (hstep s a t hinit hmeets.1 ht)

/-- An invariant of every step holds at the end of every run. -/
theorem invariant {I : σ → Prop} (hstep : ∀ s a t, I s → M.step s a = some t → I t) {s u : σ}
    {actions : List α} (hrun : M.run s actions = some u) (hinit : I s) : I u :=
  M.invariant_run (fun s a t hs _ ht ↦ hstep s a t hs ht)
    (M.meets_of_forall (C := fun _ _ ↦ True) fun _ _ ↦ trivial) hrun hinit

/-- A potential that a step raises by at most its cost is raised by a run by at most the costs of
its steps. -/
theorem potential_run {potential : σ → ℕ} {cost : α → ℕ}
    (hstep : ∀ s a t, M.step s a = some t → potential t ≤ potential s + cost a) {s u : σ}
    {actions : List α} (hrun : M.run s actions = some u) :
    potential u ≤ potential s + (actions.map cost).sum := by
  induction actions generalizing s with
  | nil =>
    rw [run_nil, Option.some.injEq] at hrun
    rw [hrun]
    exact Nat.le_add_right _ _
  | cons a rest ih =>
    obtain ⟨t, ht, hrest⟩ := M.run_cons_eq_some.mp hrun
    calc potential u ≤ potential t + (rest.map cost).sum := ih hrest
      _ ≤ potential s + cost a + (rest.map cost).sum := Nat.add_le_add_right (hstep s a t ht) _
      _ = potential s + ((a :: rest).map cost).sum := by
          rw [List.map_cons, List.sum_cons, Nat.add_assoc]

/-- A run that does not meet `C` has a first offending step, reached while meeting `C`. -/
theorem exists_first_offence {C : σ → α → Prop} {s u : σ} {actions : List α}
    (hrun : M.run s actions = some u) (hmeets : ¬ M.Meets C s actions) :
    ∃ before a after t v, actions = before ++ a :: after ∧ M.run s before = some t ∧
      M.Meets C s before ∧ ¬ C t a ∧ M.step t a = some v ∧ M.run v after = some u := by
  induction actions generalizing s with
  | nil => exact absurd trivial hmeets
  | cons a rest ih =>
    obtain ⟨t, ht, hrest⟩ := M.run_cons_eq_some.mp hrun
    by_cases hC : C s a
    · have hlater : ¬ M.Meets C t rest := by
        intro hmeetsRest
        refine hmeets ⟨hC, fun t' ht' ↦ ?_⟩
        rw [ht, Option.some.injEq] at ht'
        exact ht' ▸ hmeetsRest
      obtain ⟨before, b, after, w, v, hsplit, hbefore, hmet, hoff, hstep, hafter⟩ :=
        ih hrest hlater
      refine ⟨a :: before, b, after, w, v, by rw [hsplit, List.cons_append], ?_, ?_, hoff,
        hstep, hafter⟩
      · exact M.run_cons_eq_some.mpr ⟨t, ht, hbefore⟩
      · refine ⟨hC, fun t' ht' ↦ ?_⟩
        rw [ht, Option.some.injEq] at ht'
        exact ht' ▸ hmet
    · exact ⟨[], a, rest, s, t, rfl, rfl, trivial, hC, ht, hrest⟩

/-- Every state that a run passes satisfies `P`, the first and the last included. -/
def Always (P : σ → Prop) (s : σ) (actions : List α) : Prop :=
  ∀ before after t, actions = before ++ after → M.run s before = some t → P t

/-- When an invariant that gives `P` is kept by the steps that meet `C`, a run that meets `C`
satisfies `P` throughout. -/
theorem always_of_meets {I P : σ → Prop} {C : σ → α → Prop} (hP : ∀ s, I s → P s)
    (hkeep : ∀ s a t, I s → C s a → M.step s a = some t → I t) {s : σ} {actions : List α}
    (hmeets : M.Meets C s actions) (hinit : I s) : M.Always P s actions := by
  intro before after t hsplit hbefore
  rw [hsplit] at hmeets
  exact hP t (M.invariant_run hkeep (M.meets_append hmeets hbefore).1 hbefore hinit)

/-- When an invariant that gives `P` is kept by the steps that meet `C`, and every other step
breaks `P`, a run satisfies `P` throughout exactly when it meets `C`. -/
theorem always_iff_meets {I P : σ → Prop} {C : σ → α → Prop} (hP : ∀ s, I s → P s)
    (hkeep : ∀ s a t, I s → C s a → M.step s a = some t → I t)
    (hbreak : ∀ s a t, I s → ¬ C s a → M.step s a = some t → ¬ P t) {s u : σ} {actions : List α}
    (hrun : M.run s actions = some u) (hinit : I s) :
    M.Always P s actions ↔ M.Meets C s actions := by
  constructor
  · intro halways
    by_contra hmeets
    obtain ⟨before, a, after, t, v, hsplit, hbefore, hmet, hoff, hstep, -⟩ :=
      M.exists_first_offence hrun hmeets
    have ht := M.invariant_run hkeep hmet hbefore hinit
    refine hbreak t a v ht hoff hstep (halways (before ++ [a]) after v ?_ ?_)
    · rw [hsplit, List.append_assoc, List.singleton_append]
    · exact M.run_append_eq_some.mpr ⟨t, hbefore, M.run_cons_eq_some.mpr ⟨v, hstep, rfl⟩⟩
  · exact fun hmeets ↦ M.always_of_meets hP hkeep hmeets hinit

end Machine

end DatumSync.Foundation
