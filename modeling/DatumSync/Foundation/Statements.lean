import DatumSync.Foundation.Machine
import Mathlib.Data.List.Nodup

/-!
# Tables that statements write

A statement decides for each row of a table what is left of it, and inserts rows of its own.  When
every step of a machine is such a statement, the rows at the end of a run are what the later
statements have left of the rows at its start and of the rows that its steps have inserted.  What
happens to one row is then a matter of the actions alone.
-/

namespace DatumSync.Foundation

variable {σ α R K : Type*}

/-- What the statements leave of a row, one after the other; `none` once it has been deleted. -/
def life (fate : α → R → Option R) : List α → R → Option R
  | [], row => some row
  | a :: rest, row => (fate a row).bind (life fate rest)

/-- Every step leaves of each row what its statement decides, and inserts its rows. -/
def Machine.Writes (M : Machine σ α) (table : σ → List R) (fate : α → R → Option R)
    (inserts : α → List R) : Prop :=
  ∀ s a t, M.step s a = some t → table t = (table s).filterMap (fate a) ++ inserts a

variable {fate : α → R → Option R} {a : α} {actions rest : List α} {row row' : R}

theorem life_nil : life fate [] row = some row := rfl

theorem life_cons : life fate (a :: rest) row = (fate a row).bind (life fate rest) := rfl

theorem life_cons_eq_some :
    life fate (a :: rest) row = some row' ↔
      ∃ next, fate a row = some next ∧ life fate rest next = some row' := by
  rw [life_cons, Option.bind_eq_some_iff]

/-! ## Kinds of statements -/

/-- A statement on another table. -/
theorem rows_kept (rows : List R) : rows = rows.filterMap some ++ [] := by
  rw [List.append_nil, List.filterMap_some]

/-- `UPDATE` -/
theorem rows_updated (f : R → R) (rows : List R) :
    rows.map f = (rows.filterMap fun row ↦ some (f row)) ++ [] := by
  rw [List.append_nil, List.filterMap_eq_map']

/-- `INSERT` -/
theorem rows_inserted (rows new : List R) : rows ++ new = rows.filterMap some ++ new := by
  rw [List.filterMap_some]

/-- `DELETE`, of the rows that do not meet the test. -/
theorem rows_deleted (p : R → Bool) (rows : List R) :
    rows.filter p = (rows.filterMap fun row ↦ if p row then some row else none) ++ [] := by
  rw [List.append_nil, ← List.filterMap_eq_filter]
  rfl

/-! ## The rows at the end of a run -/

namespace Machine

variable {M : Machine σ α} {table : σ → List R} {inserts : α → List R} {s u : σ}

/-- Every action of a run is enabled where it is taken. -/
theorem exists_step_of_mem (hrun : M.run s actions = some u) (ha : a ∈ actions) :
    ∃ before after, M.step before a = some after := by
  induction actions generalizing s with
  | nil => cases ha
  | cons b rest ih =>
    obtain ⟨t, ht, hrest⟩ := M.run_cons_eq_some.mp hrun
    cases List.mem_cons.mp ha with
    | inl hb => exact ⟨s, t, hb ▸ ht⟩
    | inr hlater => exact ih hrest hlater

/-- A row at the end of a run is what has become of a row at its start or of one inserted in it. -/
theorem Writes.mem_iff (h : M.Writes table fate inserts) (hrun : M.run s actions = some u) :
    row ∈ table u ↔ (∃ old ∈ table s, life fate actions old = some row) ∨
      ∃ before a after, actions = before ++ a :: after ∧
        ∃ new ∈ inserts a, life fate after new = some row := by
  induction actions generalizing s with
  | nil =>
    rw [run_nil, Option.some.injEq] at hrun
    subst hrun
    constructor
    · intro hrow
      exact .inl ⟨row, hrow, life_nil⟩
    · intro hrow
      cases hrow with
      | inl hold =>
        obtain ⟨old, hold, hlife⟩ := hold
        rw [life_nil, Option.some.injEq] at hlife
        exact hlife ▸ hold
      | inr hnew =>
        obtain ⟨before, a, after, hsplit, -⟩ := hnew
        exact absurd hsplit.symm (List.append_ne_nil_of_right_ne_nil before (List.cons_ne_nil a after))
  | cons b rest ih =>
    obtain ⟨t, ht, hrest⟩ := M.run_cons_eq_some.mp hrun
    rw [ih hrest, h s b t ht]
    simp only [List.mem_append, List.mem_filterMap]
    constructor
    · intro hrow
      cases hrow with
      | inl hold =>
        obtain ⟨next, hnext, hlife⟩ := hold
        cases hnext with
        | inl hkept =>
          obtain ⟨old, hold, hfate⟩ := hkept
          exact .inl ⟨old, hold, life_cons_eq_some.mpr ⟨next, hfate, hlife⟩⟩
        | inr hinserted => exact .inr ⟨[], b, rest, rfl, next, hinserted, hlife⟩
      | inr hnew =>
        obtain ⟨before, a, after, hsplit, hnew⟩ := hnew
        exact .inr ⟨b :: before, a, after, by rw [hsplit, List.cons_append], hnew⟩
    · intro hrow
      cases hrow with
      | inl hold =>
        obtain ⟨old, hold, hlife⟩ := hold
        obtain ⟨next, hfate, hlife⟩ := life_cons_eq_some.mp hlife
        exact .inl ⟨next, .inl ⟨old, hold, hfate⟩, hlife⟩
      | inr hnew =>
        obtain ⟨before, a, after, hsplit, new, hnew, hlife⟩ := hnew
        cases before with
        | nil =>
          obtain ⟨rfl, rfl⟩ := List.cons.inj hsplit
          exact .inl ⟨new, .inr hnew, hlife⟩
        | cons c before =>
          obtain ⟨rfl, rfl⟩ := List.cons.inj hsplit
          exact .inr ⟨before, a, after, rfl, new, hnew, hlife⟩

/-- What becomes of a row is in the table at the end. -/
theorem Writes.mem_of_life (h : M.Writes table fate inserts) (hrun : M.run s actions = some u)
    (hrow : row ∈ table s) (hlife : life fate actions row = some row') : row' ∈ table u :=
  (h.mem_iff hrun).mpr (.inl ⟨row, hrow, hlife⟩)

/-- What every inserted row has, and no statement takes from a row, holds of the rows at the end of a
run when it holds of those at its start. -/
theorem Writes.forall_mem (h : M.Writes table fate inserts) {P : R → Prop}
    (hrun : M.run s actions = some u) (hstart : ∀ row ∈ table s, P row)
    (hinserts : ∀ a ∈ actions, ∀ row ∈ inserts a, P row)
    (hfate : ∀ a ∈ actions, ∀ row row', P row → fate a row = some row' → P row') :
    ∀ row ∈ table u, P row := by
  induction actions generalizing s with
  | nil =>
    rw [run_nil, Option.some.injEq] at hrun
    exact hrun ▸ hstart
  | cons a rest ih =>
    obtain ⟨t, ht, hrest⟩ := M.run_cons_eq_some.mp hrun
    apply ih hrest
    · intro row hrow
      rw [h s a t ht, List.mem_append, List.mem_filterMap] at hrow
      cases hrow with
      | inl hkept =>
        obtain ⟨old, hold, hold'⟩ := hkept
        exact hfate a List.mem_cons_self old row (hstart old hold) hold'
      | inr hinserted => exact hinserts a List.mem_cons_self row hinserted
    · intro b hb
      exact hinserts b (List.mem_cons_of_mem a hb)
    · intro b hb
      exact hfate b (List.mem_cons_of_mem a hb)

end Machine

/-! ## The life of one row -/

section Life

variable (key : R → K) (hits : α → K → Prop)

/-- A mark that statements set and none clears: at the end a row is marked when it was at the start
or when some statement has hit its key. -/
theorem life_marked (marked : R → Prop)
    (hstep : ∀ a row, ∃ next, fate a row = some next ∧ key next = key row ∧
      (marked next ↔ marked row ∨ hits a (key row))) (actions : List α) (row : R) :
    ∃ last, life fate actions row = some last ∧ key last = key row ∧
      (marked last ↔ marked row ∨ ∃ a ∈ actions, hits a (key row)) := by
  induction actions generalizing row with
  | nil =>
    refine ⟨row, life_nil, rfl, ?_⟩
    simp only [List.not_mem_nil, false_and, exists_false, or_false]
  | cons a rest ih =>
    obtain ⟨next, hfate, hkey, hmarked⟩ := hstep a row
    obtain ⟨last, hlife, hlast, hall⟩ := ih next
    refine ⟨last, life_cons_eq_some.mpr ⟨next, hfate, hlife⟩, hlast.trans hkey, ?_⟩
    rw [hall, hmarked, hkey, List.exists_mem_cons_iff, or_assoc]

/-- What the statements that do not hit its key leave in place stays with a row that none hits. -/
theorem life_spared (P : R → Prop)
    (hstep : ∀ a row, ¬ hits a (key row) → P row →
      ∃ next, fate a row = some next ∧ key next = key row ∧ P next)
    (hspared : ∀ a ∈ actions, ¬ hits a (key row)) (hrow : P row) :
    ∃ last, life fate actions row = some last ∧ key last = key row ∧ P last := by
  induction actions generalizing row with
  | nil => exact ⟨row, life_nil, rfl, hrow⟩
  | cons a rest ih =>
    rw [List.forall_mem_cons] at hspared
    obtain ⟨next, hfate, hkey, hnext⟩ := hstep a row hspared.1 hrow
    obtain ⟨last, hlife, hlast, hP⟩ := ih (hkey ▸ hspared.2) hnext
    exact ⟨last, life_cons_eq_some.mpr ⟨next, hfate, hlife⟩, hlast.trans hkey, hP⟩

/-- What no statement gives to a row, and those that hit its key take from it, is at the end of its
life only with a row that had it from the start and was never hit. -/
theorem life_traced (P : R → Prop)
    (hstep : ∀ a ∈ actions, ∀ row next, fate a row = some next →
      key next = key row ∧ (P next → P row ∧ ¬ hits a (key row)))
    (hlife : life fate actions row = some row') (hP : P row') :
    key row' = key row ∧ P row ∧ ∀ a ∈ actions, ¬ hits a (key row) := by
  induction actions generalizing row with
  | nil =>
    rw [life_nil, Option.some.injEq] at hlife
    exact ⟨hlife ▸ rfl, hlife ▸ hP, List.forall_mem_nil _⟩
  | cons a rest ih =>
    rw [List.forall_mem_cons] at hstep
    obtain ⟨next, hfate, hrest⟩ := life_cons_eq_some.mp hlife
    obtain ⟨hkey, htaken⟩ := hstep.1 row next hfate
    obtain ⟨hlast, hnext, hspared⟩ := ih hstep.2 hrest
    obtain ⟨hrow, hhit⟩ := htaken hnext
    exact ⟨hlast.trans hkey, hrow, List.forall_mem_cons.mpr ⟨hhit, hkey ▸ hspared⟩⟩

end Life

/-! ## Unique columns -/

section Unique

variable {rows : List R} {key : R → K}

/-- Rows that share a unique column are one row. -/
theorem eq_of_unique (hunique : (rows.map key).Nodup) {other : R} (hrow : row ∈ rows)
    (hother : other ∈ rows) (hkey : key other = key row) : other = row :=
  List.inj_on_of_nodup_map hunique hother hrow hkey

/-- A query by a unique column finds the one row. -/
theorem filter_of_unique [BEq K] [LawfulBEq K] (hunique : (rows.map key).Nodup)
    (hrow : row ∈ rows) : rows.filter (fun other ↦ key other == key row) = [row] := by
  induction rows with
  | nil => cases hrow
  | cons first rest ih =>
    rw [List.map_cons, List.nodup_cons] at hunique
    cases List.mem_cons.mp hrow with
    | inl hfirst =>
      have hnone : rest.filter (fun other ↦ key other == key first) = [] := by
        rw [List.filter_eq_nil_iff]
        intro other hother hkey
        exact hunique.1 (List.mem_map.mpr ⟨other, hother, eq_of_beq hkey⟩)
      rw [hfirst, List.filter_cons_of_pos (by exact beq_self_eq_true _), hnone]
    | inr hrest =>
      have hne : ¬ (key first == key row) = true := by
        rw [beq_iff_eq]
        exact fun hkey ↦ hunique.1 (List.mem_map.mpr ⟨row, hrest, hkey.symm⟩)
      rw [List.filter_cons_of_neg (by exact hne), ih hunique.2 hrest]

end Unique

end DatumSync.Foundation
