import Mathlib.Data.List.Sort

/-!
# Reading an ordered log by a cursor

A reader of a log whose entries have strictly increasing keys keeps a cursor: the largest key it
has seen.  What it has read since it started at `a` are the entries with keys in `(a, c]`.  Reading
the whole rest moves the cursor to the last key; reading the next entry adds that entry behind the
ones read before.
-/

namespace DatumSync.Foundation

section Advance

variable {α κ : Type*} (key : α → κ)

/-- The cursor after reading `entries` from cursor `c`. -/
def advance (c : κ) (entries : List α) : κ := (entries.getLast?.map key).getD c

theorem advance_nil (c : κ) : advance key c [] = c := rfl

theorem advance_concat (c : κ) (entries : List α) (x : α) :
    advance key c (entries ++ [x]) = key x := by
  rw [advance, List.getLast?_concat, Option.map_some, Option.getD_some]

end Advance

variable {α κ : Type*} [LinearOrder κ] (key : α → κ)

/-- The entries beyond the cursor. -/
def entriesAfter (c : κ) (log : List α) : List α := log.filter fun x ↦ decide (c < key x)

/-- The entries in `(a, c]`. -/
def entriesUpTo (a c : κ) (log : List α) : List α :=
  log.filter fun x ↦ decide (a < key x ∧ key x ≤ c)

def Increasing (log : List α) : Prop := log.Pairwise fun x y ↦ key x < key y

variable {key}

theorem mem_entriesAfter {c : κ} {log : List α} {x : α} :
    x ∈ entriesAfter key c log ↔ x ∈ log ∧ c < key x := by
  rw [entriesAfter, List.mem_filter, decide_eq_true_iff]

theorem entriesUpTo_self (a : κ) (log : List α) : entriesUpTo key a a log = [] := by
  apply List.filter_eq_nil_iff.mpr
  intro x _
  rw [decide_eq_true_iff]
  exact fun h ↦ not_le_of_gt h.1 h.2

theorem entriesUpTo_eq_filter (a c : κ) (log : List α) :
    entriesUpTo key a c log = (entriesAfter key a log).filter fun x ↦ decide (key x ≤ c) := by
  rw [entriesUpTo, entriesAfter, List.filter_filter]
  apply List.filter_congr
  intro x _
  rw [← Bool.decide_and]
  exact decide_eq_decide.mpr and_comm

/-- A reader has read everything beyond `a` exactly when no such entry is beyond its cursor. -/
theorem entriesUpTo_length_eq_iff {a c : κ} {log : List α} (hle : a ≤ c) :
    (entriesUpTo key a c log).length = (entriesAfter key a log).length ↔
      ∀ x ∈ log, key x ≤ c := by
  rw [entriesUpTo_eq_filter, List.length_filter_eq_length_iff]
  constructor
  · intro h x hx
    by_cases ha : a < key x
    · exact of_decide_eq_true (h x (mem_entriesAfter.mpr ⟨hx, ha⟩))
    · calc
        key x ≤ a := not_lt.mp ha
        _ ≤ c := hle
  · exact fun h x hx ↦ decide_eq_true (h x (mem_entriesAfter.mp hx).1)

theorem entriesUpTo_eq_entriesAfter {a c : κ} {log : List α} (h : ∀ x ∈ log, key x ≤ c) :
    entriesUpTo key a c log = entriesAfter key a log := by
  rw [entriesUpTo_eq_filter]
  exact List.filter_eq_self.mpr fun x hx ↦ decide_eq_true (h x (mem_entriesAfter.mp hx).1)

theorem entriesUpTo_concat {a c : κ} {log : List α} {x : α} (h : c < key x) :
    entriesUpTo key a c (log ++ [x]) = entriesUpTo key a c log := by
  rw [entriesUpTo, entriesUpTo, List.filter_append, List.filter_singleton]
  simp [not_le_of_gt h]

theorem Increasing.le_last {entries : List α} {x y : α} (h : Increasing key (entries ++ [y]))
    (hx : x ∈ entries ++ [y]) : key x ≤ key y := by
  rcases List.mem_append.mp hx with hx | hx
  · exact (List.pairwise_append.mp h).2.2 x hx y List.mem_cons_self |>.le
  · rw [List.mem_singleton.mp hx]

theorem Increasing.entriesAfter {log : List α} (h : Increasing key log) (c : κ) :
    Increasing key (entriesAfter key c log) :=
  List.Pairwise.filter _ h

theorem le_advance {log : List α} (c : κ) : c ≤ advance key c (entriesAfter key c log) := by
  rcases List.eq_nil_or_concat' (entriesAfter key c log) with hnil | ⟨entries, x, hconcat⟩
  · rw [hnil, advance_nil]
  · have hx : x ∈ entriesAfter key c log := by
      rw [hconcat]
      exact List.mem_append_right _ List.mem_cons_self
    rw [hconcat, advance_concat]
    exact (mem_entriesAfter.mp hx).2.le

/-- Reading the rest of the log leaves nothing beyond the cursor. -/
theorem le_advance_of_mem {log : List α} {x : α} (h : Increasing key log) (hx : x ∈ log) (c : κ) :
    key x ≤ advance key c (entriesAfter key c log) := by
  by_cases hc : c < key x
  · have hmem := mem_entriesAfter.mpr ⟨hx, hc⟩
    rcases List.eq_nil_or_concat' (entriesAfter key c log) with hnil | ⟨entries, y, hconcat⟩
    · rw [hnil] at hmem
      exact absurd hmem List.not_mem_nil
    · have hafter := h.entriesAfter c
      rw [hconcat] at hmem hafter ⊢
      rw [advance_concat]
      exact hafter.le_last hmem
  · calc
      key x ≤ c := not_lt.mp hc
      _ ≤ advance key c (entriesAfter key c log) := le_advance c

/-- Reading the first entry beyond the cursor adds it behind those read before. -/
theorem entriesUpTo_next {a c : κ} {log : List α} {x : α} (h : Increasing key log) (hx : x ∈ log)
    (hle : a ≤ c) (hc : c < key x) (hfirst : ∀ y ∈ log, c < key y → key x ≤ key y) :
    entriesUpTo key a (key x) log = entriesUpTo key a c log ++ [x] := by
  induction log with
  | nil => exact absurd hx List.not_mem_nil
  | cons y rest ih =>
    obtain ⟨hhead, hrest⟩ := List.pairwise_cons.mp h
    by_cases hy : c < key y
    · have hyx : y = x := by
        rcases List.mem_cons.mp hx with hx | hx
        · exact hx.symm
        · exact absurd (hfirst y List.mem_cons_self hy) (not_le_of_gt (hhead x hx))
      subst hyx
      have hread : entriesUpTo key a c (y :: rest) = [] := by
        apply List.filter_eq_nil_iff.mpr
        intro z hz
        rw [decide_eq_true_iff]
        rcases List.mem_cons.mp hz with rfl | hz
        · exact fun hz' ↦ not_le_of_gt hy hz'.2
        · exact fun hz' ↦ not_le_of_gt (hy.trans (hhead z hz)) hz'.2
      have hbeyond : entriesUpTo key a (key y) rest = [] := by
        apply List.filter_eq_nil_iff.mpr
        intro z hz
        rw [decide_eq_true_iff]
        exact fun hz' ↦ not_le_of_gt (hhead z hz) hz'.2
      rw [hread, entriesUpTo, List.filter_cons_of_pos (by simpa using hle.trans_lt hc)]
      exact congrArg (y :: ·) hbeyond
    · have hxrest : x ∈ rest := by
        rcases List.mem_cons.mp hx with rfl | hx
        · exact absurd hc hy
        · exact hx
      have hnext := ih hrest hxrest fun z hz ↦ hfirst z (List.mem_cons_of_mem y hz)
      have hsame : decide (a < key y ∧ key y ≤ key x) = decide (a < key y ∧ key y ≤ c) :=
        decide_eq_decide.mpr
          (and_congr_right fun _ ↦ iff_of_true ((not_lt.mp hy).trans hc.le) (not_lt.mp hy))
      unfold entriesUpTo at hnext ⊢
      rw [List.filter_cons, List.filter_cons, hsame, hnext]
      split
      · rfl
      · rfl

end DatumSync.Foundation
