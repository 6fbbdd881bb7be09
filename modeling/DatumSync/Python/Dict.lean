import DatumSync.Python.Text

/-!
# Dictionaries of texts

A `dict[str, str]` is the list of its items in insertion order; its keys are distinct.
-/

namespace DatumSync.Python

theorem setItem_mem_iff {α : Type*} {entries : List (Str × α)}
    (hnodup : (entries.map Prod.fst).Nodup) {key k : Str} {value v : α} :
    (k, v) ∈ setItem entries key value ↔ k = key ∧ v = value ∨ k ≠ key ∧ (k, v) ∈ entries := by
  induction entries with
  | nil =>
    rw [setItem, List.mem_singleton, Prod.mk.injEq]
    simp
  | cons entry rest ih =>
    rw [List.map_cons, List.nodup_cons] at hnodup
    rw [setItem]
    split
    · next h =>
      have hrest : ∀ w, (key, w) ∉ rest := fun w hw ↦
        hnodup.1 (h ▸ List.mem_map_of_mem hw)
      rw [List.mem_cons, List.mem_cons, Prod.mk.injEq]
      constructor
      · rintro (h' | h')
        · exact .inl h'
        · refine .inr ⟨?_, .inr h'⟩
          rintro rfl
          exact hrest v h'
      · rintro (h' | ⟨hne, rfl | h'⟩)
        · exact .inl h'
        · exact absurd h hne
        · exact .inr h'
    · next h =>
      rw [List.mem_cons, List.mem_cons, ih hnodup.2]
      constructor
      · rintro (rfl | h' | ⟨hne, h'⟩)
        · exact .inr ⟨h, .inl rfl⟩
        · exact .inl h'
        · exact .inr ⟨hne, .inr h'⟩
      · rintro (h' | ⟨hne, h' | h'⟩)
        · exact .inr (.inl h')
        · exact .inl h'
        · exact .inr (.inr ⟨hne, h'⟩)

theorem setItem_keys_subset {α : Type*} {entries : List (Str × α)} {key k : Str} {value : α}
    (h : k ∈ (setItem entries key value).map Prod.fst) :
    k = key ∨ k ∈ entries.map Prod.fst := by
  induction entries with
  | nil => exact .inl (List.mem_singleton.mp h)
  | cons entry rest ih =>
    rw [setItem] at h
    split at h
    · rcases List.mem_cons.mp h with h | h
      · exact .inl h
      · exact .inr (List.mem_cons_of_mem _ h)
    · rcases List.mem_cons.mp h with h | h
      · exact .inr (h ▸ List.mem_cons_self)
      · exact (ih h).imp id (List.mem_cons_of_mem _)

theorem setItem_nodup {α : Type*} {entries : List (Str × α)}
    (hnodup : (entries.map Prod.fst).Nodup) (key : Str) (value : α) :
    ((setItem entries key value).map Prod.fst).Nodup := by
  induction entries with
  | nil => exact List.nodup_cons.mpr ⟨List.not_mem_nil, List.nodup_nil⟩
  | cons entry rest ih =>
    rw [List.map_cons, List.nodup_cons] at hnodup
    rw [setItem]
    split
    · next h => exact List.nodup_cons.mpr ⟨h ▸ hnodup.1, hnodup.2⟩
    · next h =>
      refine List.nodup_cons.mpr ⟨fun hmem ↦ ?_, ih hnodup.2⟩
      exact (setItem_keys_subset hmem).elim h hnodup.1

theorem lookup_setItem {α : Type*} (entries : List (Str × α)) (key other : Str) (value : α) :
    (setItem entries key value).lookup other =
      if other = key then some value else entries.lookup other := by
  induction entries with
  | nil =>
    rw [setItem, List.lookup_cons]
    by_cases h : other = key
    · simp [h]
    · simp [h, beq_eq_false_iff_ne.mpr h]
  | cons entry rest ih =>
    rw [setItem]
    by_cases hentry : entry.1 = key
    · rw [if_pos hentry, List.lookup_cons, List.lookup_cons, hentry]
      by_cases h : other = key
      · simp [h]
      · simp [h, beq_eq_false_iff_ne.mpr h]
    · rw [if_neg hentry, List.lookup_cons, List.lookup_cons]
      by_cases h : other = entry.1
      · simp [h, hentry]
      · simpa [beq_eq_false_iff_ne.mpr h] using ih

theorem setItem_map {α β : Type*} (f : α → β) (entries : List (Str × α)) (key : Str) (value : α) :
    (setItem entries key value).map (fun entry ↦ (entry.1, f entry.2)) =
      setItem (entries.map fun entry ↦ (entry.1, f entry.2)) key (f value) := by
  induction entries with
  | nil => rfl
  | cons entry rest ih =>
    by_cases hkey : entry.1 = key
    · simp only [setItem, hkey, if_true, List.map_cons]
    · simp only [setItem, hkey, if_false, List.map_cons, ih]

structure Dict where
  items : List (Str × Str)
  nodup : (items.map Prod.fst).Nodup

namespace Dict

def empty : Dict := ⟨[], List.nodup_nil⟩

instance : Membership (Str × Str) Dict := ⟨fun d item ↦ item ∈ d.items⟩

/-- `d[key] = value` -/
def set (d : Dict) (key value : Str) : Dict :=
  ⟨setItem d.items key value, setItem_nodup d.nodup key value⟩

/-- `{k: v for k, v in d.items() if p(k)}` -/
def filterKeys (d : Dict) (p : Str → Bool) : Dict :=
  ⟨d.items.filter fun item ↦ p item.1, d.nodup.sublist (List.filter_sublist.map _)⟩

theorem mem_set {d : Dict} {key value k v : Str} :
    (k, v) ∈ d.set key value ↔ k = key ∧ v = value ∨ k ≠ key ∧ (k, v) ∈ d :=
  setItem_mem_iff d.nodup

theorem mem_filterKeys {d : Dict} {p : Str → Bool} {k v : Str} :
    (k, v) ∈ d.filterKeys p ↔ (k, v) ∈ d ∧ p k = true :=
  List.mem_filter

/-- The values under a set of keys are the one value of an item of theirs exactly when no other key
of the set occurs. -/
theorem filter_values_eq_singleton_iff {d : Dict} {p : Str → Bool} {key value : Str}
    (hmem : (key, value) ∈ d) (hp : p key = true) :
    (d.items.filter fun item ↦ p item.1).map Prod.snd = [value] ↔
      ∀ k v, (k, v) ∈ d → p k = true → k = key := by
  have hitem : (key, value) ∈ (d.filterKeys p).items := mem_filterKeys.mpr ⟨hmem, hp⟩
  change (d.filterKeys p).items.map Prod.snd = [value] ↔ _
  constructor
  · intro h k v hk hpk
    obtain ⟨item, hitems, -⟩ := List.map_eq_singleton_iff.mp h
    have hother : (k, v) ∈ (d.filterKeys p).items := mem_filterKeys.mpr ⟨hk, hpk⟩
    rw [hitems, List.mem_singleton] at hitem hother
    exact congrArg Prod.fst (hother.trans hitem.symm)
  · intro h
    have hkeys : (d.filterKeys p).items.map Prod.fst =
        List.replicate (d.filterKeys p).items.length key := by
      refine List.eq_replicate_iff.mpr ⟨List.length_map _, fun k hk ↦ ?_⟩
      obtain ⟨⟨k', v⟩, hin, rfl⟩ := List.mem_map.mp hk
      exact h k' v (mem_filterKeys.mp hin).1 (mem_filterKeys.mp hin).2
    have hshort : (d.filterKeys p).items.length ≤ 1 := by
      have hnodup := (d.filterKeys p).nodup
      rwa [hkeys, List.nodup_replicate] at hnodup
    obtain ⟨item, hitems⟩ := List.length_eq_one_iff.mp
      (le_antisymm hshort (List.length_pos_of_mem hitem))
    rw [hitems, List.mem_singleton] at hitem
    rw [hitems, ← hitem]
    rfl

end Dict

end DatumSync.Python
