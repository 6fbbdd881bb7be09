import Mathlib.Algebra.BigOperators.Group.List.Basic
import Mathlib.Algebra.GroupWithZero.Nat
import Mathlib.Order.Lattice.Nat

/-!
# Cascades

Processing an item causes further items, at most `m` of them, each related to it by `causes`.  If
no chain of causes from an item is longer than `n`, the item has at most `yield m n` descendants.
The debt of the items that wait to be processed bounds what processing them can still create, and
processing one of them does not increase what is created plus the debt.
-/

namespace DatumSync.Foundation

variable {κ : Type*} (causes : κ → κ → Prop)

/-- No chain of causes from the item is longer than `n`. -/
def EndsWithin : ℕ → κ → Prop
  | 0, x => ∀ y, ¬ causes x y
  | n + 1, x => ∀ y, causes x y → EndsWithin n y

/-- The most descendants an item can have, by the length of its longest chain. -/
def yield (m : ℕ) : ℕ → ℕ
  | 0 => 0
  | n + 1 => m * (yield m n + 1)

variable {causes}

theorem yield_mono (m : ℕ) : Monotone (yield m) := by
  apply monotone_nat_of_le_succ
  intro n
  induction n with
  | zero => exact Nat.zero_le _
  | succ n ih => exact Nat.mul_le_mul_left m (Nat.succ_le_succ ih)

/-- The length of the longest chain from an item. -/
noncomputable def height (causes : κ → κ → Prop) (x : κ) : ℕ :=
  sInf { n | EndsWithin causes n x }

theorem endsWithin_height {n : ℕ} {x : κ} (h : EndsWithin causes n x) :
    EndsWithin causes (height causes x) x :=
  Nat.sInf_mem (s := { n | EndsWithin causes n x }) ⟨n, h⟩

theorem height_le {n : ℕ} {x : κ} (h : EndsWithin causes n x) : height causes x ≤ n :=
  Nat.sInf_le h

/-- What the waiting items can still create. -/
noncomputable def debt (causes : κ → κ → Prop) (m : ℕ) (waiting : List κ) : ℕ :=
  (waiting.map fun x ↦ yield m (height causes x)).sum

theorem debt_append (m : ℕ) (first second : List κ) :
    debt causes m (first ++ second) = debt causes m first + debt causes m second := by
  rw [debt, List.map_append, List.sum_append, debt, debt]

theorem debt_singleton (m : ℕ) (x : κ) : debt causes m [x] = yield m (height causes x) := by
  rw [debt, List.map_singleton, List.sum_singleton]

/-- One submitted item adds at most the yield of the longest chain. -/
theorem debt_singleton_le {n : ℕ} (m : ℕ) {x : κ} (h : EndsWithin causes n x) :
    debt causes m [x] ≤ yield m n := by
  rw [debt_singleton]
  exact yield_mono m (height_le h)

/-- Items that all have shorter chains owe at most the shorter yield each. -/
theorem debt_le {n : ℕ} (m : ℕ) {items : List κ} (h : ∀ x ∈ items, EndsWithin causes n x) :
    debt causes m items ≤ items.length * yield m n := by
  induction items with
  | nil => exact (Nat.zero_mul _).symm ▸ le_rfl
  | cons x rest ih =>
    obtain ⟨hx, hrest⟩ := List.forall_mem_cons.mp h
    rw [← List.singleton_append, debt_append, List.length_append, Nat.add_mul]
    refine Nat.add_le_add ?_ (ih hrest)
    rw [List.length_singleton, Nat.one_mul]
    exact debt_singleton_le m hx

/-- What processing an item creates is paid from its own debt. -/
theorem length_add_debt_le {n m : ℕ} {x : κ} {items : List κ} (h : EndsWithin causes n x)
    (hlength : items.length ≤ m) (hcauses : ∀ y ∈ items, causes x y) :
    items.length + debt causes m items ≤ debt causes m [x] := by
  rw [debt_singleton]
  have hheight := endsWithin_height h
  cases hk : height causes x with
  | zero =>
    rw [hk] at hheight
    have hnil : items = [] := by
      cases items with
      | nil => rfl
      | cons y rest => exact absurd (hcauses y List.mem_cons_self) (hheight y)
    rw [hnil]
    exact le_rfl
  | succ k =>
    rw [hk] at hheight
    calc items.length + debt causes m items
        ≤ items.length + items.length * yield m k :=
          Nat.add_le_add_left (debt_le m fun y hy ↦ hheight y (hcauses y hy)) _
      _ = items.length * (yield m k + 1) := by
          rw [Nat.mul_add, Nat.mul_one, Nat.add_comm]
      _ ≤ m * (yield m k + 1) := Nat.mul_le_mul_right _ hlength

end DatumSync.Foundation
