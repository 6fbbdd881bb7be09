import Mathlib.Logic.Function.Basic
import Mathlib.Data.List.Basic

/-!
# Tables under READ COMMITTED with row locks

A table maps keys to committed rows.  A transaction keeps what it has written until it commits, and
a row it has locked is written by no other.  An `UPDATE ... WHERE` takes the rows that match when it
starts, waits for the lock of each, and checks its condition again on the row it then finds.
-/

namespace DatumSync.Foundation

/-! ## Locks -/

section Exclusive

variable {P K S : Type*} {holds : S → K → Prop} {phases : P → S}

/-- No key is held by two processes. -/
def Exclusive (holds : S → K → Prop) (phases : P → S) : Prop :=
  ∀ ⦃p q k⦄, holds (phases p) k → holds (phases q) k → p = q

/-- A process may go on to keys that it holds or that nobody else does. -/
theorem Exclusive.update [DecidableEq P] (h : Exclusive holds phases) {p : P} {phase : S}
    (hnew : ∀ k, holds phase k → holds (phases p) k ∨ ∀ q, q ≠ p → ¬ holds (phases q) k) :
    Exclusive holds (Function.update phases p phase) := by
  have hother (q : P) (hq : q ≠ p) (k : K) (hp : holds phase k) : ¬ holds (phases q) k := by
    intro hheld
    rcases hnew k hp with hold | hfree
    · exact hq (h hheld hold)
    · exact hfree q hq hheld
  intro q r k hq hr
  by_cases hqp : q = p
  · by_cases hrp : r = p
    · rw [hqp, hrp]
    · rw [hqp, Function.update_self] at hq
      rw [Function.update_of_ne hrp] at hr
      exact absurd hr (hother r hrp k hq)
  · rw [Function.update_of_ne hqp] at hq
    by_cases hrp : r = p
    · rw [hrp, Function.update_self] at hr
      exact absurd hq (hother q hqp k hr)
    · rw [Function.update_of_ne hrp] at hr
      exact h hq hr

end Exclusive

/-! ## Writes -/

section Writes

variable {K R : Type*} [DecidableEq K]

/-- The rows of `keys` are changed. -/
def modifyAll (f : R → R) (keys : List K) (table : K → Option R) (k : K) : Option R :=
  if k ∈ keys then (table k).map f else table k

def insertAll (key : R → K) (rows : List R) (table : K → Option R) (k : K) : Option R :=
  (rows.find? fun row ↦ key row == k).or (table k)

/-- Every row stands at its key. -/
def Keyed (key : R → K) (table : K → Option R) : Prop := ∀ k row, table k = some row → key row = k

variable {f : R → R} {keys : List K} {table : K → Option R} {key : R → K} {rows : List R} {k : K}

theorem modifyAll_of_not_mem (h : k ∉ keys) : modifyAll f keys table k = table k := if_neg h

theorem modifyAll_of_mem (h : k ∈ keys) : modifyAll f keys table k = (table k).map f := if_pos h

/-- A row after a change is one from before or its image. -/
theorem modifyAll_eq_some {row : R} (h : modifyAll f keys table k = some row) :
    table k = some row ∧ k ∉ keys ∨ ∃ old, table k = some old ∧ k ∈ keys ∧ row = f old := by
  unfold modifyAll at h
  split at h
  · next hmem =>
    obtain ⟨old, hold, hrow⟩ := Option.map_eq_some_iff.mp h
    exact .inr ⟨old, hold, hmem, hrow.symm⟩
  · next hmem => exact .inl ⟨h, hmem⟩

theorem insertAll_of_not_mem (h : ∀ row ∈ rows, key row ≠ k) :
    insertAll key rows table k = table k := by
  have hnone : (rows.find? fun row ↦ key row == k) = none := by
    rw [List.find?_eq_none]
    intro row hrow
    simpa using h row hrow
  rw [insertAll, hnone, Option.none_or]

/-- A row after an insertion is one of the new rows or one from before. -/
theorem insertAll_eq_some {row : R} (h : insertAll key rows table k = some row) :
    row ∈ rows ∧ key row = k ∨ table k = some row ∧ ∀ new ∈ rows, key new ≠ k := by
  unfold insertAll at h
  rcases Option.or_eq_some_iff.mp h with hfound | ⟨hnone, hold⟩
  · refine .inl ⟨List.mem_of_find?_eq_some hfound, ?_⟩
    simpa using List.find?_some hfound
  · refine .inr ⟨hold, fun new hnew ↦ ?_⟩
    simpa using List.find?_eq_none.mp hnone new hnew

theorem Keyed.modifyAll (h : Keyed key table) (hf : ∀ row, key (f row) = key row) :
    Keyed key (modifyAll f keys table) := by
  intro k row hrow
  rcases modifyAll_eq_some hrow with ⟨hsame, -⟩ | ⟨old, hold, -, rfl⟩
  · exact h k row hsame
  · rw [hf, h k old hold]

theorem Keyed.insertAll (h : Keyed key table) : Keyed key (insertAll key rows table) := by
  intro k row hrow
  rcases insertAll_eq_some hrow with ⟨-, hkey⟩ | ⟨hsame, -⟩
  · exact hkey
  · exact h k row hsame

end Writes

/-! ## Set-wise updates -/

/-- A running `UPDATE ... WHERE`: the rows it has still to come to, and those it has changed. -/
structure SetUpdate (K : Type*) where
  pending : List K
  done : List K

namespace SetUpdate

variable {K R : Type*} (wanted : R → Bool) (table : K → Option R)

/-- The rows that match when the statement starts. -/
def start (keys : List K) : SetUpdate K where
  pending := keys.filter fun k ↦ (table k).any wanted
  done := []

/-- The rows that the statement has changed match its condition. -/
def Matching (update : SetUpdate K) : Prop := ∀ k ∈ update.done, (table k).any wanted = true

/-- The statement has come to every row that matches its condition, or has still to. -/
def Covers (update : SetUpdate K) : Prop :=
  ∀ k, (table k).any wanted = true → k ∈ update.pending ∨ k ∈ update.done

variable {wanted table}

theorem matching_start (keys : List K) : (start wanted table keys).Matching wanted table :=
  fun _ h ↦ absurd h List.not_mem_nil

theorem covers_start {keys : List K} (hkeys : ∀ k, (table k).any wanted = true → k ∈ keys) :
    (start wanted table keys).Covers wanted table :=
  fun k hk ↦ .inl (List.mem_filter.mpr ⟨hkeys k hk, hk⟩)

/-- Others may change rows as long as none comes to match. -/
theorem Covers.mono {update : SetUpdate K} (h : update.Covers wanted table) {after : K → Option R}
    (hmatch : ∀ k, (after k).any wanted = true → (table k).any wanted = true) :
    update.Covers wanted after := fun k hk ↦ h k (hmatch k hk)

/-- Rows that other transactions leave alone keep matching. -/
theorem Matching.congr {update : SetUpdate K} (h : update.Matching wanted table)
    {after : K → Option R} (hsame : ∀ k ∈ update.done, after k = table k) :
    update.Matching wanted after := by
  intro k hk
  rw [hsame k hk]
  exact h k hk

variable [DecidableEq K]

/-- The statement has the lock of a row and checks its condition again. -/
def visit (wanted : R → Bool) (table : K → Option R) (update : SetUpdate K) (k : K) :
    SetUpdate K where
  pending := update.pending.erase k
  done := if (table k).any wanted then k :: update.done else update.done

theorem mem_done_visit {update : SetUpdate K} {j k : K}
    (h : j ∈ (update.visit wanted table k).done) :
    j ∈ update.done ∨ j = k ∧ (table k).any wanted = true := by
  unfold visit at h
  dsimp only at h
  split at h
  · next hwanted => exact (List.mem_cons.mp h).symm.imp_right fun hj ↦ ⟨hj, hwanted⟩
  · exact .inl h

theorem Covers.visit {update : SetUpdate K} (h : update.Covers wanted table) (k : K) :
    (update.visit wanted table k).Covers wanted table := by
  intro j hj
  unfold SetUpdate.visit
  dsimp only
  by_cases hjk : j = k
  · subst hjk
    right
    rw [if_pos hj]
    exact List.mem_cons_self
  · refine (h j hj).imp (fun hpending ↦ (List.mem_erase_of_ne hjk).mpr hpending) fun hdone ↦ ?_
    split
    · exact List.mem_cons_of_mem _ hdone
    · exact hdone

/-- A statement that covers what matches leaves nothing that does, once it has come to all. -/
theorem Covers.finish {update : SetUpdate K} (h : update.Covers wanted table)
    (hpending : update.pending = []) {f : R → R} (hf : ∀ row, wanted (f row) = false) (k : K) :
    (modifyAll f update.done table k).any wanted = false := by
  unfold modifyAll
  split
  · rw [Option.any_map]
    cases table k with
    | none => rfl
    | some row => exact hf row
  · next hdone =>
    apply Bool.eq_false_iff.mpr
    intro hk
    rcases h k hk with hleft | hdone'
    · rw [hpending] at hleft
      cases hleft
    · exact hdone hdone'

theorem Matching.visit {update : SetUpdate K} (h : update.Matching wanted table) (k : K) :
    (update.visit wanted table k).Matching wanted table := by
  intro j hj
  rcases mem_done_visit hj with hdone | ⟨rfl, hwanted⟩
  · exact h j hdone
  · exact hwanted

end SetUpdate

end DatumSync.Foundation
