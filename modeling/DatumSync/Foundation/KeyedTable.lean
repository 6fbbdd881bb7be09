import Mathlib.Data.List.AList

/-!
# Tables with a unique key

A table is a finite map from keys to rows.  An upsert writes the row of its key unless the row that
is there refuses; a deletion keeps the rows that do not meet its test.
-/

namespace DatumSync.Foundation

/-- A table: rows under distinct keys. -/
abbrev Table (K R : Type*) := AList fun _ : K ↦ R

namespace Table

variable {K R : Type*} [DecidableEq K]

/-- `INSERT ... ON CONFLICT (key) DO UPDATE ... WHERE`: the table, and whether a row was written. -/
def upsert (key : K) (row : R) (merge : R → R) (allowed : R → Bool) (t : Table K R) :
    Table K R × Bool :=
  match t.lookup key with
  | none => (t.insert key row, true)
  | some held => if allowed held then (t.insert key (merge held), true) else (t, false)

/-- The rows that meet a test. -/
def keep (p : K → R → Bool) (t : Table K R) : Table K R :=
  ⟨t.entries.filter fun entry ↦ p entry.1 entry.2,
    List.NodupKeys.sublist List.filter_sublist t.nodupKeys⟩

variable {key k : K} {row : R} {merge : R → R} {allowed : R → Bool} {t : Table K R}

/-- An upsert writes unless the row that is there refuses. -/
theorem upsert_snd : (upsert key row merge allowed t).2 = (t.lookup key).all allowed := by
  rw [upsert]
  cases t.lookup key with
  | none => rfl
  | some held => cases h : allowed held <;> simp [h]

theorem lookup_upsert_ne (h : k ≠ key) :
    (upsert key row merge allowed t).1.lookup k = t.lookup k := by
  rw [upsert]
  cases t.lookup key with
  | none => exact AList.lookup_insert_ne h
  | some held =>
    split
    · next heq =>
      cases heq
    · next heq =>
      split
      · exact AList.lookup_insert_ne h
      · rfl

/-- What the key of an upsert that wrote holds. -/
theorem lookup_upsert_self (h : (t.lookup key).all allowed = true) :
    (upsert key row merge allowed t).1.lookup key = some ((t.lookup key).elim row merge) := by
  rw [upsert]
  cases hheld : t.lookup key with
  | none => exact AList.lookup_insert t
  | some held =>
    rw [hheld] at h
    have hallowed : allowed held = true := h
    simp only [hallowed, if_true]
    exact AList.lookup_insert t

/-- An upsert that is refused leaves the table as it is. -/
theorem upsert_refused (h : (t.lookup key).all allowed = false) :
    upsert key row merge allowed t = (t, false) := by
  rw [upsert]
  cases hheld : t.lookup key with
  | none =>
    rw [hheld] at h
    cases h
  | some held =>
    rw [hheld] at h
    have hallowed : allowed held = false := h
    simp only [hallowed, Bool.false_eq_true, if_false]

theorem lookup_keep {p : K → R → Bool} : (keep p t).lookup k = (t.lookup k).filter (p k) := by
  ext row
  rw [← Option.mem_def, ← Option.mem_def, AList.mem_lookup_iff, Option.mem_filter_iff,
    AList.mem_lookup_iff]
  exact List.mem_filter

end Table

end DatumSync.Foundation
